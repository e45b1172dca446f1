import DocumentStore.Predicate.LiteralPattern
import DocumentStore.Proofs.Number.Rounding
import DocumentStore.Proofs.Value.Keys

/-!
# Equality and order of scalars

Equality and order are decided apart from each other, kind by kind, and with a scalar they agree:
what equals it is what is neither less nor greater.  So a test that allows equality accepts what
one of its two parts accepts, and of two values of one kind just one of the three tests holds.
-/

namespace DocumentStore

/-! ## Comparands -/

theorem beq_eq_compare {α : Type} [Ord α] [BEq α] [LawfulBEq α] [Std.LawfulEqOrd α] (x y : α) :
    (x == y) = (some (compare x y) == some .eq) := by
  rw [Bool.eq_iff_iff, beq_iff_eq, beq_iff_eq, Option.some_inj, Std.compare_eq_iff_eq]

theorem ObjectId.beq_eq_order (a b : ObjectId) : (a == b) = (some (a.order b) == some .eq) := by
  have hvalue : a = b ↔ a.value.toNat = b.value.toNat := by
    rw [BitVec.toNat_inj, ObjectId.mk.injEq]
  rw [Bool.eq_iff_iff, beq_iff_eq, beq_iff_eq, Option.some_inj, order, Nat.compare_eq_eq, hvalue]

theorem Binary64.exists_compare? {x y : Binary64} (hx : x.isNaN = false) (hy : y.isNaN = false) :
    ∃ ordering, x.compare? y = some ordering := by
  rw [compare?, hx, hy]
  exact ⟨_, rfl⟩

namespace Comparand

def IsOrdered : Comparand → Prop
  | .bool _ | .int _ | .double _ | .text _ | .objectId _ | .dateTime _ => True
  | .null | .list _ | .document _ => False

theorem equal_eq_order? {b : Comparand} (h : b.IsOrdered) (a : Comparand) :
    a.equal b = (a.order? b == some .eq) := by
  cases b with
  | null | list | document => exact h.elim
  | bool y =>
      cases a with
      | bool x => exact beq_eq_compare x y
      | _ => rfl
  | int n =>
      cases a with
      | int m => exact beq_eq_compare m n
      | double x => exact Binary64.equal_comm (.ofInt n) x
      | _ => rfl
  | double y =>
      -- both sides read the same comparison of doubles
      cases a <;> rfl
  | text y =>
      cases a with
      | text x => exact beq_eq_compare x y
      | _ => rfl
  | objectId y =>
      cases a with
      | objectId x => exact ObjectId.beq_eq_order x y
      | _ => rfl
  | dateTime y =>
      cases a with
      | dateTime x => exact beq_eq_compare x y
      | _ => rfl

end Comparand

/-! ## Kinds of scalars -/

/-- What scalars are alike in; all numbers are of one kind. -/
inductive ScalarKind where
  | bool
  | number
  | string
  | objectId
  | dateTime
deriving DecidableEq

namespace Value

def scalarKind? : Value → Option ScalarKind
  | .bool _ => some .bool
  | .int32 _ | .int64 _ | .double _ => some .number
  | .string _ => some .string
  | .objectId _ => some .objectId
  | .dateTime _ => some .dateTime
  | _ => none

def isNaN : Value → Bool
  | .double x => x.isNaN
  | _ => false

theorem isOrdered_of_isScalar {value : Value} (h : value.IsScalar) : value.comparand.IsOrdered := by
  cases value with
  | bool | int32 | int64 | double | string | objectId | dateTime => trivial
  | _ => exact h.elim

theorem isScalar_iff_scalarKind? {value : Value} :
    value.IsScalar ↔ value.scalarKind?.isSome = true := by
  cases value <;> simp [IsScalar, scalarKind?]

/-- Two scalars of one kind have an order, unless one of them is a NaN. -/
theorem exists_order?_of_scalarKind? {a b : Value} (ha : a.IsScalar)
    (hkind : a.scalarKind? = b.scalarKind?) (hanan : a.isNaN = false) (hbnan : b.isNaN = false) :
    ∃ ordering, a.comparand.order? b.comparand = some ordering := by
  cases a with
  | bool | string | objectId | dateTime =>
      cases b <;> first | exact ⟨_, rfl⟩ | cases hkind
  | int32 | int64 =>
      cases b with
      | int32 | int64 => exact ⟨_, rfl⟩
      | double y => exact Binary64.exists_compare? (Binary64.isNaN_ofInt _) hbnan
      | _ => cases hkind
  | double x =>
      cases b with
      | int32 | int64 => exact Binary64.exists_compare? hanan (Binary64.isNaN_ofInt _)
      | double y => exact Binary64.exists_compare? hanan hbnan
      | _ => cases hkind
  | _ => exact ha.elim

end Value

/-! ## Tests -/

namespace Comparison

variable {found : Option Value} {value : Value}

theorem foundOrdered_iff {accepts : Ordering → Bool} :
    foundOrdered found value accepts = true ↔
      ∃ stored, found = some stored ∧ ∃ candidate ∈ stored.testedValues,
        ∃ ordering, candidate.order? value.comparand = some ordering ∧
          accepts ordering = true := by
  cases found with
  | none => simp [foundOrdered]
  | some stored =>
      rw [foundOrdered, List.any_eq_true]
      constructor
      · rintro ⟨candidate, hcandidate, haccepted⟩
        refine ⟨stored, rfl, candidate, hcandidate, ?_⟩
        cases horder : candidate.order? value.comparand with
        | none => simp [horder] at haccepted
        | some ordering => exact ⟨ordering, rfl, by simpa [horder] using haccepted⟩
      · rintro ⟨_, hstored, candidate, hcandidate, ordering, horder, haccepted⟩
        cases hstored
        exact ⟨candidate, hcandidate, by simpa [horder] using haccepted⟩

theorem foundEqual_iff (h : value.IsScalar) :
    foundEqual found value = true ↔
      ∃ stored, found = some stored ∧ ∃ candidate ∈ stored.testedValues,
        candidate.order? value.comparand = some .eq := by
  cases found with
  | none => simp [Value.foundEqual_none_of_isScalar h]
  | some stored =>
      simp [foundEqual, Comparand.equal_eq_order? (Value.isOrdered_of_isScalar h)]

/-- The orders to the wanted value that a test accepts; a membership test and a negated one do
not ask for an order. -/
def orders : Comparison → List Ordering
  | .eq => [.eq]
  | .gt => [.gt]
  | .gte => [.gt, .eq]
  | .lt => [.lt]
  | .lte => [.lt, .eq]
  | .ne | .oneOf | .noneOf | .allOf => []

theorem holds_iff_exists_order {op : Comparison} (hop : op.orders ≠ []) (h : value.IsScalar) :
    op.holds found value = true ↔
      ∃ stored, found = some stored ∧ ∃ candidate ∈ stored.testedValues,
        ∃ ordering ∈ op.orders, candidate.order? value.comparand = some ordering := by
  have hordered (accepts : Ordering → Bool)
      (horders : ∀ ordering, accepts ordering = true ↔ ordering ∈ op.orders) :
      foundOrdered found value accepts = true ↔
        ∃ stored, found = some stored ∧ ∃ candidate ∈ stored.testedValues,
          ∃ ordering ∈ op.orders, candidate.order? value.comparand = some ordering := by
    simp only [foundOrdered_iff, horders, and_comm]
  cases op with
  | eq => simp [holds, foundEqual_iff h, orders]
  | gt | gte | lt | lte => exact hordered _ (by rintro (_ | _ | _) <;> decide)
  | ne | oneOf | noneOf | allOf => exact absurd rfl hop

theorem holds_iff_or {op first second : Comparison} (hfirst : first.orders ≠ [])
    (hsecond : second.orders ≠ []) (hop : op.orders = first.orders ++ second.orders)
    (h : value.IsScalar) :
    op.holds found value = true ↔
      first.holds found value = true ∨ second.holds found value = true := by
  have hne : op.orders ≠ [] := by
    rw [hop]
    exact List.append_ne_nil_of_left_ne_nil hfirst _
  simp only [holds_iff_exists_order hne h, holds_iff_exists_order hfirst h,
    holds_iff_exists_order hsecond h, hop, List.mem_append, or_and_right, exists_or, and_or_left]

theorem holds_iff_of_order? {op : Comparison} {stored : Value} {ordering : Ordering}
    (hop : op.orders ≠ []) (hstored : stored.IsScalar) (h : value.IsScalar)
    (horder : stored.comparand.order? value.comparand = some ordering) :
    op.holds (some stored) value = true ↔ ordering ∈ op.orders := by
  rw [holds_iff_exists_order hop h]
  simp [Value.testedValues_of_isScalar hstored, horder]

theorem existsUnique_orders (ordering : Ordering) :
    ∃! op, op ∈ [lt, eq, gt] ∧ ordering ∈ op.orders := by
  cases ordering with
  | lt => exact ⟨lt, by decide, fun op => by cases op <;> decide⟩
  | eq => exact ⟨eq, by decide, fun op => by cases op <;> decide⟩
  | gt => exact ⟨gt, by decide, fun op => by cases op <;> decide⟩

end Comparison

/-! ## Records -/

namespace Predicate

theorem evaluate_compare_iff {reader : PatternReader} {record : Document} {field : String}
    {op : Comparison} {value : Value} :
    (compare field op value).evaluate reader record = .ok true ↔
      op.holds (record.valueOf? field) value = true := by
  rw [evaluate, Except.ok.injEq]

/-- With a scalar, a test that allows equality accepts just the records that the strict test or
the test for equality accepts.  Of a field that holds a scalar of its kind, neither being a NaN,
just one of less, equal and greater is accepted. -/
theorem trichotomy_of_scalar (reader : PatternReader) (record : Document) (field : String)
    {value : Value} (h : value.IsScalar) :
    ((compare field .gte value).evaluate reader record = .ok true ↔
      (compare field .gt value).evaluate reader record = .ok true ∨
        (compare field .eq value).evaluate reader record = .ok true) ∧
    ((compare field .lte value).evaluate reader record = .ok true ↔
      (compare field .lt value).evaluate reader record = .ok true ∨
        (compare field .eq value).evaluate reader record = .ok true) ∧
    ∀ stored, record.valueOf? field = some stored → stored.scalarKind? = value.scalarKind? →
      stored.isNaN = false → value.isNaN = false →
      ∃! op, op ∈ [Comparison.lt, .eq, .gt] ∧
        (compare field op value).evaluate reader record = .ok true := by
  simp only [evaluate_compare_iff]
  refine ⟨Comparison.holds_iff_or (by decide) (by decide) rfl h,
    Comparison.holds_iff_or (by decide) (by decide) rfl h, ?_⟩
  intro stored hfound hkind hstored hvalue
  have hscalar : stored.IsScalar := by
    rw [Value.isScalar_iff_scalarKind?, hkind, ← Value.isScalar_iff_scalarKind?]
    exact h
  obtain ⟨ordering, horder⟩ := Value.exists_order?_of_scalarKind? hscalar hkind hstored hvalue
  have hasks : ∀ op ∈ [Comparison.lt, .eq, .gt], op.orders ≠ [] := by decide
  have hpasses (op : Comparison) :
      op ∈ [Comparison.lt, .eq, .gt] ∧ op.holds (some stored) value = true ↔
        op ∈ [Comparison.lt, .eq, .gt] ∧ ordering ∈ op.orders :=
    and_congr_right fun hop => Comparison.holds_iff_of_order? (hasks op hop) hscalar h horder
  rw [hfound, existsUnique_congr hpasses]
  exact Comparison.existsUnique_orders ordering

/-- An integer equals the double that it is rounded to, and is neither less nor greater. -/
theorem trichotomy_of_integer_and_rounded_double :
    let record : Document := [("n", .int64 9007199254740993)]
    let value : Value := .double ⟨0x4340000000000000⟩
    value.IsScalar ∧ record.valueOf? "n" = some (.int64 9007199254740993) ∧
    (Value.int64 9007199254740993).scalarKind? = value.scalarKind? ∧
    (Value.int64 9007199254740993).isNaN = false ∧ value.isNaN = false ∧
    (∃! op, op ∈ [Comparison.lt, .eq, .gt] ∧
      (compare "n" op value).evaluate .literal record = .ok true) ∧
    (compare "n" .eq value).evaluate .literal record = .ok true ∧
    (compare "n" .gte value).evaluate .literal record = .ok true := by
  intro record value
  have hfound : record.valueOf? "n" = some (.int64 9007199254740993) := rfl
  have hequal : (compare "n" .eq value).evaluate .literal record = .ok true := by decide +kernel
  obtain ⟨hgte, -, hone⟩ := trichotomy_of_scalar .literal record "n"
    (show value.IsScalar from trivial)
  have hnan : value.isNaN = false := by decide
  exact ⟨trivial, hfound, rfl, rfl, hnan, hone _ hfound rfl rfl hnan, hequal,
    hgte.2 (.inr hequal)⟩

end Predicate

end DocumentStore
