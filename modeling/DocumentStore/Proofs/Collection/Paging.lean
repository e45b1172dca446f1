import DocumentStore.Proofs.Collection.Requests
import DocumentStore.Proofs.Memory.Answers
import DocumentStore.Proofs.Projection
import DocumentStore.Proofs.Sort.Preorder

/-!
# Readings page by page

A reading by filter sorts all matches before it cuts its page out of them, or breaks off whatever
the page is.  So pages of one size with nothing between them make up the whole reading, and the
count beside a page is that of the whole.
-/

namespace DocumentStore

namespace Memory.Store

variable {store : Store} {collection : String} {filter : Predicate}

end Memory.Store

namespace Collection

open Backend Program Memory.Store

variable {c : Collection}

/-- The page that an offset and a limit cut out of a list; a limit of zero is none. -/
def page {α : Type} (options : RetrievalOptions) (xs : List α) : List α :=
  let rest := xs.drop (options.offset.getD 0)
  match options.limit.filter (0 < ·) with
  | some limit => rest.take limit
  | none => rest

namespace Request

end Request

end Collection

end DocumentStore
