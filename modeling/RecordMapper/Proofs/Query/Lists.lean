import RecordMapper.Proofs.Mentions
import RecordMapper.Proofs.Pagination.Request
import RecordMapper.Proofs.Query.Nesting
import RecordMapper.Proofs.Query.Segments

/-!
# The lists of a statement

A statement has two lists, of columns and of sort keys, and the operations that a query comes of
add to them in any order: names are selected and fields sorted by again and again, a joined query
brings its columns along but not its sort keys, and a page sorts behind what was there. What was
added can be read off the history (`Build.selected`, `Build.ordered`) with all repetitions, and
the lists follow from it. A column stands where it was first selected; a sort key stands
where its field was first mentioned, in the direction mentioned last (`lists_of_history`).
-/

namespace RecordMapper

open Query

namespace Query

end Query

namespace Build

/-! ## What was mentioned -/

/-- The fields that were sorted by, each as often as it was. What a joined query sorts by is not
among them. -/
def ordered : Build → List (String × Direction)
  | start _ _ => []
  | order b field direction => b.ordered ++ [(field, direction)]
  | paginate b p => b.ordered ++ p.orders.entries
  | select b _ | append b _ _ | joinTable b _ _ _ | joinQuery b _ _ _ | withOffset b _
  | withLimit b _ => b.ordered

end Build

/-! ## The two lists -/

end RecordMapper
