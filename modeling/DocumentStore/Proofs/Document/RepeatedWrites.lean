import DocumentStore.Proofs.Document.Reordering

/-!
# Rows of writes made twice

A row of writes acts on every field of a document by itself: the writes that lead into a field act
on what it holds, by what is left of their paths.  Where one of them writes the field as a whole,
nothing before it counts.  Otherwise they are a row of writes on the document in the field, so that
a row made twice does what it does once.
-/

namespace DocumentStore

def Value.inside : Value → Document
  | .document fields => fields
  | _ => []

abbrev Writes := List (Path × Value)

namespace Writes

def ofPatch (patch : Document) : Writes :=
  patch.map fun entry => (Path.ofText entry.1, entry.2)

def apply (writes : Writes) (fields : Document) : Document :=
  writes.foldl (fun fields write => fields.setAt write.2 write.1) fields

/-- What a field holds after a write by the rest of a path that leads into it. -/
def put (write : Path × Value) (held : Value) : Value :=
  match write.1 with
  | [] => write.2
  | path => .document (held.inside.setAt write.2 path)

def hold (writes : Writes) (held : Value) : Value :=
  writes.foldl (fun held write => put write held) held

def into (key : String) (writes : Writes) : Writes :=
  writes.filterMap fun write =>
    match write.1 with
    | [] => none
    | first :: rest => if first = key then some (rest, write.2) else none

def past (key : String) (writes : Writes) : Writes :=
  writes.filter (·.1.head? != some key)

theorem apply_cons (write : Path × Value) (writes : Writes) (fields : Document) :
    apply (write :: writes) fields = apply writes (fields.setAt write.2 write.1) := rfl

theorem hold_cons (write : Path × Value) (writes : Writes) (held : Value) :
    hold (write :: writes) held = hold writes (put write held) := rfl

theorem apply_ofPatch (patch fields : Document) :
    apply (ofPatch patch) fields = fields.overlay patch := by
  rw [apply, ofPatch, List.foldl_map]
  rfl

/-! ## One field at a time -/

section

variable {key first : String} {rest : Path} {value held : Value} {fields : Document}
  {writes : Writes}

theorem into_cons_self :
    into key ((key :: rest, value) :: writes) = (rest, value) :: into key writes :=
  List.filterMap_cons_some (if_pos rfl)

theorem into_cons_of_ne (h : first ≠ key) :
    into key ((first :: rest, value) :: writes) = into key writes :=
  List.filterMap_cons_none (if_neg h)

theorem past_cons_self : past key ((key :: rest, value) :: writes) = past key writes :=
  List.filter_cons_of_neg (by simp)

theorem past_cons_of_ne (h : first ≠ key) :
    past key ((first :: rest, value) :: writes) = (first :: rest, value) :: past key writes :=
  List.filter_cons_of_pos (by simpa using h)

theorem setAt_empty :
    Document.setAt value (key :: rest) [] = [(key, put (rest, value) .null)] := by
  cases rest <;> rfl

theorem setAt_cons_self :
    Document.setAt value (key :: rest) ((key, held) :: fields) =
      (key, put (rest, value) held) :: fields := by
  cases rest with
  | nil => simp [Document.setAt, Fields.insert, put]
  | cons second rest =>
      have hnested : Document.nested key ((key, held) :: fields) = held.inside := by
        rw [Document.nested, Fields.get?_cons, if_pos rfl]
        cases held <;> rfl
      rw [Document.setAt_cons_cons, hnested, Fields.insert, if_pos rfl]
      rfl

theorem setAt_cons_of_ne (h : first ≠ key) :
    Document.setAt value (first :: rest) ((key, held) :: fields) =
      (key, held) :: Document.setAt value (first :: rest) fields := by
  obtain ⟨written, hwritten⟩ := Document.exists_setAt_cons value first rest
  have hnested : Document.nested first ((key, held) :: fields) = Document.nested first fields := by
    rw [Document.nested, Fields.get?_cons, if_neg h.symm, Document.nested]
  rw [hwritten, hwritten, hnested, Fields.insert, if_neg h.symm]

end

/-- The writes into the first field act on what it holds, and all others pass it. -/
theorem apply_field (writes : Writes) (key : String) (held : Value) (fields : Document) :
    apply writes ((key, held) :: fields) =
      (key, hold (into key writes) held) :: apply (past key writes) fields := by
  induction writes generalizing held fields with
  | nil => rfl
  | cons write writes ih =>
      obtain ⟨path, value⟩ := write
      cases path with
      | nil => exact ih held fields
      | cons first rest =>
          by_cases hfirst : first = key
          · subst hfirst
            rw [apply_cons, setAt_cons_self, ih, into_cons_self, past_cons_self, hold_cons]
          · rw [apply_cons, setAt_cons_of_ne hfirst, ih, into_cons_of_ne hfirst,
              past_cons_of_ne hfirst, apply_cons]

/-! ## What a field holds -/

/-- The last write of the field as a whole forgets what was there. -/
theorem hold_of_whole {writes : Writes} (h : ∃ write ∈ writes, write.1 = [])
    (held other : Value) : hold writes held = hold writes other := by
  induction writes generalizing held other with
  | nil => simp at h
  | cons write writes ih =>
      rw [hold_cons, hold_cons]
      by_cases hrest : ∃ write ∈ writes, write.1 = []
      · exact ih hrest _ _
      · obtain ⟨whole, hmem, hnil⟩ := h
        rcases List.mem_cons.1 hmem with rfl | hmem
        · rw [put, put, hnil]
        · exact absurd ⟨whole, hmem, hnil⟩ hrest

theorem put_of_ne_nil {write : Path × Value} (h : write.1 ≠ []) (held : Value) :
    put write held = .document (held.inside.setAt write.2 write.1) := by
  rw [put]
  split
  · next hnil => exact absurd hnil h
  · rfl

theorem hold_document {writes : Writes} (h : ∀ write ∈ writes, write.1 ≠ [])
    (fields : Document) : hold writes (.document fields) = .document (apply writes fields) := by
  induction writes generalizing fields with
  | nil => rfl
  | cons write writes ih =>
      rw [hold_cons, put_of_ne_nil (h write List.mem_cons_self), apply_cons]
      exact ih (fun other hother => h other (List.mem_cons_of_mem _ hother)) _

/-- Made twice, the writes do what they do once. -/
def Repeatable (writes : Writes) : Prop :=
  ∀ fields, apply writes (apply writes fields) = apply writes fields

theorem hold_hold {writes : Writes} (h : writes.Repeatable) (held : Value) :
    hold writes (hold writes held) = hold writes held := by
  by_cases hwhole : ∃ write ∈ writes, write.1 = []
  · exact hold_of_whole hwhole _ _
  · have hbehind : ∀ write ∈ writes, write.1 ≠ [] :=
      fun write hwrite hnil => hwhole ⟨write, hwrite, hnil⟩
    cases writes with
    | nil => rfl
    | cons write writes =>
        -- Whatever is held, the first write leaves a document, as one on a document does.
        have hdocument : hold (write :: writes) held =
            .document (apply (write :: writes) held.inside) := by
          have hput := put_of_ne_nil (hbehind write List.mem_cons_self)
          rw [← hold_document hbehind, hold_cons, hold_cons, hput, hput]
          rfl
        rw [hdocument, hold_document hbehind, h]

/-! ## Documents -/

/-- Every path of the writes has fewer segments than the bound. -/
def Within (bound : Nat) (writes : Writes) : Prop :=
  ∀ write ∈ writes, write.1.length < bound

theorem within_into {bound : Nat} {writes : Writes} (h : writes.Within (bound + 1))
    (key : String) : (into key writes).Within bound := by
  intro write hwrite
  obtain ⟨⟨path, value⟩, hmem, hinto⟩ := List.mem_filterMap.1 hwrite
  cases path with
  | nil => cases hinto
  | cons first rest =>
      dsimp only at hinto
      split at hinto
      · have hlength := h _ hmem
        rw [← Option.some_inj.1 hinto]
        simpa using hlength
      · cases hinto

theorem within_past {bound : Nat} {writes : Writes} (h : writes.Within bound) (key : String) :
    (past key writes).Within bound :=
  fun write hwrite => h write (List.mem_filter.1 hwrite).1

theorem exists_within (writes : Writes) : ∃ bound, writes.Within bound := by
  induction writes with
  | nil => exact ⟨0, nofun⟩
  | cons write writes ih =>
      obtain ⟨bound, hbound⟩ := ih
      refine ⟨write.1.length + 1 + bound, List.forall_mem_cons.2 ⟨by omega, ?_⟩⟩
      exact fun other hother => Nat.lt_add_left _ (hbound other hother)

section

variable {bound : Nat} (ih : ∀ writes : Writes, writes.Within bound → writes.Repeatable)

include ih

theorem hold_into_twice {writes : Writes} (h : writes.Within (bound + 1)) (key : String)
    (held : Value) :
    hold (into key writes) (hold (into key writes) held) = hold (into key writes) held :=
  hold_hold (ih _ (within_into h key)) held

/-- A new field holds what it would if it had held null. -/
theorem apply_apply_empty : ∀ writes : Writes, writes.Within (bound + 1) →
    apply writes (apply writes []) = apply writes []
  | [], _ => rfl
  | ([], value) :: writes, h =>
    apply_apply_empty writes fun write hwrite => h write (List.mem_cons_of_mem _ hwrite)
  | (key :: rest, value) :: writes, h => by
      have hhold := hold_into_twice ih h key .null
      have hrest : Within (bound + 1) writes :=
        fun write hwrite => h write (List.mem_cons_of_mem _ hwrite)
      have hpast := apply_apply_empty (past key writes) (within_past hrest key)
      have honce : apply ((key :: rest, value) :: writes) [] =
          (key, hold (into key ((key :: rest, value) :: writes)) .null) ::
            apply (past key writes) [] := by
        rw [apply_cons, setAt_empty, apply_field, into_cons_self, hold_cons]
      rw [honce, apply_field, hhold, past_cons_self, hpast]
termination_by writes => writes.length
decreasing_by
  · simp
  · exact Nat.lt_succ_of_le (List.length_filter_le _ _)

theorem apply_apply_of_within {writes : Writes} (h : writes.Within (bound + 1))
    (fields : Document) : apply writes (apply writes fields) = apply writes fields := by
  induction fields generalizing writes with
  | nil => exact apply_apply_empty ih writes h
  | cons field fields ihfields =>
      obtain ⟨key, held⟩ := field
      rw [apply_field, apply_field, hold_into_twice ih h, ihfields (within_past h key)]

end

/-- The induction is on the number of segments: what leads into a field has one fewer. -/
theorem repeatable_of_within {bound : Nat} :
    ∀ {writes : Writes}, writes.Within bound → writes.Repeatable := by
  induction bound with
  | zero =>
      intro writes h
      have hnil : writes = [] :=
        List.eq_nil_iff_forall_not_mem.2 fun write hwrite => Nat.not_lt_zero _ (h write hwrite)
      rw [hnil]
      exact fun _ => rfl
  | succ bound ih => exact fun h => apply_apply_of_within (fun _ => ih) h

end Writes

namespace Document

theorem overlay_overlay (fields patch : Document) :
    (fields.overlay patch).overlay patch = fields.overlay patch := by
  obtain ⟨bound, hbound⟩ := Writes.exists_within (Writes.ofPatch patch)
  have hrepeatable := Writes.repeatable_of_within hbound fields
  rwa [Writes.apply_ofPatch, Writes.apply_ofPatch] at hrepeatable

end Document

end DocumentStore
