import RecordMapper.Blog.Graph
import RecordMapper.Engine.Recorded
import RecordMapper.Engine.Scripted
import RecordMapper.Hydration
import RecordMapper.Record.Trace
import RecordMapper.Proofs.Query.Inlining
import RecordMapper.Proofs.Query.Reading
import RecordMapper.Proofs.Filter.Transport
import RecordMapper.Proofs.Hydration.Memo
import RecordMapper.Proofs.Filter.Truth
import RecordMapper.Proofs.Pagination.Request
import RecordMapper.Proofs.Pagination.Restriction
import RecordMapper.Proofs.Query.Tokens
import RecordMapper.Proofs.Pagination.Quoting
import RecordMapper.Proofs.Hydration.Hereditary
import RecordMapper.Proofs.Hydration.Depth
import RecordMapper.Proofs.Hydration.Once
import RecordMapper.Proofs.Hydration.Discipline
import RecordMapper.Proofs.Filter.Grammar
import RecordMapper.Proofs.Pagination.Naming
import RecordMapper.Proofs.Query.Joins
import RecordMapper.Proofs.Record.Homogeneity
import RecordMapper.Proofs.Query.Qualification
import RecordMapper.Engine.Transcribed
import RecordMapper.Proofs.Engine.Counting
import RecordMapper.Proofs.Hydration.Failure
import RecordMapper.Proofs.Query.Replacement
import RecordMapper.Proofs.Pagination.Bounds
import RecordMapper.Proofs.Pagination.Kinds
import RecordMapper.Proofs.Query.Nesting
import RecordMapper.Proofs.Query.Ancestors
import RecordMapper.Proofs.Hydration.Deferral
import RecordMapper.Proofs.Hydration.Shape
import RecordMapper.Proofs.Record.Identity
import RecordMapper.Proofs.Filter.Regrouping
import RecordMapper.Proofs.Record.CompositeKey
import RecordMapper.Proofs.Record.Sets
import RecordMapper.Proofs.Query.Lists
import RecordMapper.Proofs.Query.Segments
import RecordMapper.Proofs.Record.Grouping
import RecordMapper.Proofs.Query.Literals
