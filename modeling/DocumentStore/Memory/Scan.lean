import DocumentStore.Backend.Call
import DocumentStore.Memory.Store
import DocumentStore.Predicate.Evaluator

/-!
# Scans of a collection

A scan evaluates a filter on every record of a collection; it fails when that fails on
one record.  Finding reads the matches themselves off a scan, while counting and the changes
of stored records start from their indexes.
-/

namespace DocumentStore.Memory

abbrev Marked := List (Document × Bool)

namespace Marked

/-- Marks records with one evaluator, up to the first on which it fails. -/
def ofScanWith (reader : PatternReader) (filter : Predicate) (evaluator : Evaluator) :
    List Document → Except Failure Marked
  | [] => .ok []
  | record :: records =>
    match evaluator.test reader record filter with
    | (.ok hit, evaluator) =>
      (ofScanWith reader filter evaluator records).map ((record, hit) :: ·)
    | (.error failure, _) => .error failure

def ofScan (reader : PatternReader) (filter : Predicate) (records : List Document) :
    Except Failure Marked :=
  ofScanWith reader filter {} records

def matched (marked : Marked) : List Document := (marked.filter (·.2)).map (·.1)

def hitsFrom (index : Nat) : Marked → List (Nat × Document)
  | [] => []
  | (record, true) :: rest => (index, record) :: hitsFrom (index + 1) rest
  | (_, false) :: rest => hitsFrom (index + 1) rest

def hits (marked : Marked) : List (Nat × Document) := hitsFrom 0 marked

end Marked

namespace Store

def scan (store : Store) (collection : String) (filter : Predicate) : Except Failure Marked :=
  Marked.ofScan store.patterns filter (store.records collection)

/-- The matches with their indexes, in the order in which they are stored. -/
def matching (store : Store) (collection : String) (filter : Predicate) :
    Except Failure (List (Nat × Document)) :=
  (store.scan collection filter).map Marked.hits

/-- Skips, limits and projects records, in this order. -/
def cut (selection : Selection) (sorted : List Document) : List Document :=
  let rest := sorted.drop (selection.skip.getD 0)
  let page :=
    match selection.limit with
    | some limit => rest.take limit
    | none => rest
  page.map selection.projection.project

/-- There is no answer at all when a sort breaks off.  This failure stands for it. -/
def unsortedError : Failure :=
  .store "user-provided comparison function does not correctly implement a total order"

def select (store : Store) (selection : Selection) (found : List Document) :
    Except Failure (List Document) :=
  match store.sorting.run selection.sort found with
  | some sorted => .ok (cut selection sorted)
  | none => .error unsortedError

def find (store : Store) (collection : String) (filter : Predicate) (selection : Selection) :
    Except Failure (List Document) :=
  match store.scan collection filter with
  | .ok marked => store.select selection marked.matched
  | .error failure => .error failure

def count (store : Store) (collection : String) (filter : Predicate) : Except Failure Nat :=
  (store.matching collection filter).map List.length

end Store

end DocumentStore.Memory
