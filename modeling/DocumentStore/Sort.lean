import DocumentStore.Path
import DocumentStore.Value.Comparand

/-!
# Sort orders

Keys separated by commas, each a field and a direction; earlier keys decide first.
A missing field sorts like null.
-/

namespace DocumentStore

inductive Direction where
  | asc
  | desc
deriving DecidableEq, Repr

structure SortKey where
  field : String
  direction : Direction
deriving DecidableEq, Repr

abbrev SortOrder := List SortKey

namespace Direction

/-- `desc`, `dsc` and `-1` in any case descend; every other word ascends. -/
def ofWord (word : List Char) : Direction :=
  if ["desc", "dsc", "-1"].contains (String.ofList (Text.lower word)) then .desc else .asc

def word : Direction → String
  | .asc => "asc"
  | .desc => "desc"

end Direction

namespace SortKey

def ofEntry? (entry : List Char) : Option SortKey :=
  match Text.words entry with
  | [] => none
  | [field] => some ⟨String.ofList field, .asc⟩
  | field :: word :: _ => some ⟨String.ofList field, .ofWord word⟩

def text (key : SortKey) : String := key.field ++ " " ++ key.direction.word

def comparand (key : SortKey) (record : Document) : Comparand :=
  ((Document.valueOf? key.field record).getD .null).comparand

def ordering (key : SortKey) (a b : Document) : Ordering :=
  match key.direction with
  | .asc => (key.comparand a).ranking (key.comparand b)
  | .desc => (key.comparand b).ranking (key.comparand a)

end SortKey

namespace SortOrder

/-- Entries without a word are skipped. -/
def ofText (text : String) : SortOrder :=
  (Text.splitOn ',' text.toList).filterMap SortKey.ofEntry?

def text (order : SortOrder) : String := String.intercalate "," (order.map SortKey.text)

def ordering : SortOrder → Document → Document → Ordering
  | [], _, _ => .eq
  | key :: keys, a, b => (key.ordering a b).then (ordering keys a b)

/-- Puts a record into a list that has its last record first: in front of the first record
that it does not rank below. -/
def place (order : SortOrder) (record : Document) : List Document → List Document
  | [] => [record]
  | last :: before =>
    if order.ordering record last = .lt then last :: order.place record before
    else record :: last :: before

/-- Sorts by insertion, and records that rank equal keep their places. -/
def arrange (order : SortOrder) (records : List Document) : List Document :=
  (records.foldl (fun placed record => order.place record placed) []).reverse

end SortOrder

end DocumentStore
