import RecordMapper.Proofs.Filter.Tree
import RecordMapper.Proofs.Query.Layout
import RecordMapper.Proofs.Query.Reachable

/-!
# Joined queries are taken over whole

A query that is joined gives three things to the one that joins it: its clauses, which follow
the clause of its own table; its columns, of which those already there are not taken again; and
its condition, which goes beside the condition that is there (`Merged`). Nothing else of the
base changes.

A query comes of a history of operations, its own and those of the queries joined to it
(`Build`). The history alone says how its clauses are nested and which conditions were given
on the way. The clauses of the query are this nesting, each in front of those that it brought
along, and its condition joins the given ones, each once and in their order
(`joined_whole`).
-/

namespace RecordMapper

open Query

/-! ## Conditions made of parts -/

namespace Filter

/-- The comparisons of a tree from left to right, with their operands. -/
def Node.comparisons : Node → List Node
  | .comparison field operator operand => [.comparison field operator operand]
  | .logical _ left right => left.comparisons ++ right.comparisons

def comparisons (f : Filter) : List Node := f.root.elim [] Node.comparisons

theorem comparisons_append (f : Filter) (op : Connective) (node : Option Node) :
    (f.append op node).comparisons = f.comparisons ++ node.elim [] Node.comparisons := by
  cases node with
  | none => exact (List.append_nil _).symm
  | some node => exact elim_root_push (fun _ _ _ => rfl) f op node

theorem append_of_root_none {f : Filter} (h : f.root = none) (op : Connective)
    (node : Option Node) : f.append op node = ⟨node⟩ := by
  obtain ⟨root⟩ := f
  cases h
  cases node <;> rfl

/-- The tree consists of these trees, each of them once and in this order, under connectives. -/
inductive Node.MadeOf : List Node → Node → Prop
  | part (node : Node) : MadeOf [node] node
  | both {parts parts' : List Node} {left right : Node} (op : Connective) :
      MadeOf parts left → MadeOf parts' right → MadeOf (parts ++ parts') (.logical op left right)

/-- The filter consists of these trees; without any of them it is empty. -/
inductive MadeOf : List Node → Filter → Prop
  | nothing : MadeOf [] ⟨none⟩
  | something {parts : List Node} {root : Node} : root.MadeOf parts → MadeOf parts ⟨some root⟩

theorem Node.MadeOf.comparisons_eq {parts : List Node} {node : Node} (h : node.MadeOf parts) :
    node.comparisons = parts.flatMap Node.comparisons := by
  induction h with
  | part node => exact (List.flatMap_singleton _ node).symm
  | both op _ _ ihl ihr => rw [Node.comparisons, ihl, ihr, List.flatMap_append]

theorem MadeOf.comparisons_eq {parts : List Node} {f : Filter} (h : f.MadeOf parts) :
    f.comparisons = parts.flatMap Node.comparisons := by
  cases h with
  | nothing => rfl
  | something hroot => exact hroot.comparisons_eq

/-- What is pushed comes behind what is there. -/
theorem MadeOf.append {parts parts' : List Node} {f : Filter} {node : Option Node}
    (h : f.MadeOf parts) (op : Connective) (h' : (Filter.mk node).MadeOf parts') :
    (f.append op node).MadeOf (parts ++ parts') := by
  cases h' with
  | nothing =>
      rw [List.append_nil]
      exact h
  | something hnode =>
      cases h with
      | nothing => exact .something hnode
      | something hroot => exact .something (.both op hroot hnode)

theorem madeOf_toList (node : Option Node) : (Filter.mk node).MadeOf node.toList := by
  cases node with
  | none => exact .nothing
  | some node => exact .something (.part node)

end Filter

open RecordMapper.Filter

/-! ## One join -/

/-- `q` is the base with another query joined to it: what both have is there, and nothing else. -/
structure Merged (base other : Select) (localKey foreignKey : String) (q : Select) : Prop where
  joins : q.joins = base.joins ++ ⟨other.table, localKey, foreignKey, base.table⟩ :: other.joins
  columns : q.columns.names = base.columns.names
    ++ other.columns.names.filter fun name => !base.columns.names.contains name
  filter_of_none : other.filter.root = none → q.filter = base.filter
  filter_of_base_none : base.filter.root = none → q.filter = other.filter
  filter_of_some : ∀ left right, base.filter.root = some left → other.filter.root = some right →
    q.filter.root = some (.logical .and left right)
  comparisons : q.filter.comparisons = base.filter.comparisons ++ other.filter.comparisons
  table : q.table = base.table
  model : q.model = base.model
  orders : q.orders = base.orders
  offset : q.offset = base.offset
  limit : q.limit = base.limit

theorem merged_joinOn (base other : Select) (localKey foreignKey : String) :
    Merged base other localKey foreignKey (base.joinOn (.query other) localKey foreignKey) where
  joins := rfl
  columns := NameSet.names_insertAll_of_nodup other.columns.nodup base.columns
  filter_of_none h := by
    rw [Select.joinOn, h]
    rfl
  filter_of_base_none h := by
    show base.filter.append .and other.filter.root = other.filter
    rw [append_of_root_none h]
  filter_of_some left right hleft hright := by
    show (base.filter.append .and other.filter.root).root = _
    rw [hright, Filter.append, push, hleft]
  comparisons := comparisons_append base.filter .and other.filter.root
  table := rfl
  model := rfl
  orders := rfl
  offset := rfl
  limit := rfl

/-! ## Histories -/

/-- The operations that a query comes of, and those of the queries that were joined to it. -/
inductive Build where
  | start (table : String) (model : Option Model)
  | select (b : Build) (names : List String)
  | append (b : Build) (op : Connective) (node : Option Node)
  | joinTable (b : Build) (table localKey foreignKey : String)
  | joinQuery (b other : Build) (localKey foreignKey : String)
  | order (b : Build) (field : String) (direction : Direction)
  | withOffset (b : Build) (offset : Nat)
  | withLimit (b : Build) (limit : Int)
  | paginate (b : Build) (p : Pagination)

/-- A clause, and those that the query joined by it brought along. -/
inductive JoinTree where
  | node (clause : Join) (brought : List JoinTree)

namespace JoinTree

mutual

/-- The clause in front of those that were brought along. -/
def preorder : JoinTree → List Join
  | .node clause brought => clause :: preorderAll brought
termination_by structural t => t

def preorderAll : List JoinTree → List Join
  | [] => []
  | t :: rest => t.preorder ++ preorderAll rest
termination_by structural ts => ts

end

theorem preorderAll_append : ∀ ts ts' : List JoinTree,
    preorderAll (ts ++ ts') = preorderAll ts ++ preorderAll ts'
  | [], _ => rfl
  | t :: rest, ts' => by
      rw [List.cons_append, preorderAll, preorderAll, preorderAll_append rest, List.append_assoc]

theorem preorderAll_singleton (clause : Join) (brought : List JoinTree) :
    preorderAll [.node clause brought] = clause :: preorderAll brought := by
  rw [preorderAll, preorder, preorderAll, List.append_nil]

end JoinTree

namespace Build

open Select

/-- The query that comes of the operations. -/
def run : Build → Select
  | start table model => { ofTable table with model := model }
  | select b names => b.run.select names
  | append b op node => b.run.append op node
  | joinTable b table localKey foreignKey => b.run.joinOn (.table table) localKey foreignKey
  | joinQuery b other localKey foreignKey => b.run.joinOn (.query other.run) localKey foreignKey
  | order b field direction => b.run.order field direction
  | withOffset b offset => b.run.withOffset offset
  | withLimit b limit => b.run.withLimit limit
  | paginate b p => b.run.paginate p

/-- The table that the operations began with. -/
def table : Build → String
  | start table _ => table
  | select b _ | append b _ _ | joinTable b _ _ _ | joinQuery b _ _ _ | order b _ _
  | withOffset b _ | withLimit b _ | paginate b _ => b.table

/-- How the joined queries stand one in the other. -/
def nesting : Build → List JoinTree
  | start _ _ => []
  | joinTable b table localKey foreignKey =>
      b.nesting ++ [.node ⟨table, localKey, foreignKey, b.table⟩ []]
  | joinQuery b other localKey foreignKey =>
      b.nesting ++ [.node ⟨other.table, localKey, foreignKey, b.table⟩ other.nesting]
  | select b _ | append b _ _ | order b _ _ | withOffset b _ | withLimit b _
  | paginate b _ => b.nesting

/-- The conditions that were given, also to the joined queries. The bare fields of each belong to
the table of the query that it was given to. -/
def given : Build → List Node
  | start _ _ => []
  | append b _ node => b.given ++ (node.map (Node.qualify b.table)).toList
  | paginate b p => b.given ++ (p.filter.root.map (Node.qualify b.table)).toList
  | joinQuery b other _ _ => b.given ++ other.given
  | select b _ | joinTable b _ _ _ | order b _ _ | withOffset b _ | withLimit b _ => b.given

theorem table_run (b : Build) : b.run.table = b.table := by
  induction b with
  | start table model => rfl
  | select _ _ ih | append _ _ _ ih | joinTable _ _ _ _ ih | joinQuery _ _ _ _ ih
  | order _ _ _ ih | withOffset _ _ ih | withLimit _ _ ih | paginate _ _ ih => exact ih

/-- The clauses are the nesting, read from the outside. -/
theorem joins_run (b : Build) : b.run.joins = JoinTree.preorderAll b.nesting := by
  induction b with
  | start table model => rfl
  | joinTable b table localKey foreignKey ih =>
      rw [nesting, JoinTree.preorderAll_append, JoinTree.preorderAll_singleton, ← ih, ← table_run]
      rfl
  | joinQuery b other localKey foreignKey ih ihother =>
      rw [nesting, JoinTree.preorderAll_append, JoinTree.preorderAll_singleton, ← ih, ← ihother,
        ← table_run, ← table_run]
      rfl
  | select _ _ ih | append _ _ _ ih | order _ _ _ ih | withOffset _ _ ih | withLimit _ _ ih
  | paginate _ _ ih => exact ih

theorem madeOf_append {b : Build} (h : b.run.filter.MadeOf b.given) (op : Connective)
    (node : Option Node) : (b.run.append op node).filter.MadeOf
      (b.given ++ (node.map (Node.qualify b.table)).toList) := by
  rw [Select.append, table_run]
  exact h.append op (madeOf_toList _)

/-- The condition is made of the given ones. -/
theorem madeOf_given (b : Build) : b.run.filter.MadeOf b.given := by
  induction b with
  | start table model => exact .nothing
  | append b op node ih => exact madeOf_append ih op node
  | joinQuery b other localKey foreignKey ih ihother => exact ih.append .and ihother
  | paginate b p ih => exact madeOf_append ih .and p.filter.root
  | select _ _ ih | joinTable _ _ _ _ ih | order _ _ _ ih | withOffset _ _ ih
  | withLimit _ _ ih => exact ih

theorem kept_run : Kept fun q => ∃ b : Build, b.run = q where
  ofTable table model := ⟨.start table model, rfl⟩
  select names h := by
    obtain ⟨b, rfl⟩ := h
    exact ⟨.select b names, rfl⟩
  append op node h := by
    obtain ⟨b, rfl⟩ := h
    exact ⟨.append b op node, rfl⟩
  joinTable table localKey foreignKey h := by
    obtain ⟨b, rfl⟩ := h
    exact ⟨.joinTable b table localKey foreignKey, rfl⟩
  joinQuery localKey foreignKey h hother := by
    obtain ⟨b, rfl⟩ := h
    obtain ⟨other, rfl⟩ := hother
    exact ⟨.joinQuery b other localKey foreignKey, rfl⟩
  order field direction h := by
    obtain ⟨b, rfl⟩ := h
    exact ⟨.order b field direction, rfl⟩
  withOffset offset h := by
    obtain ⟨b, rfl⟩ := h
    exact ⟨.withOffset b offset, rfl⟩
  withLimit limit h := by
    obtain ⟨b, rfl⟩ := h
    exact ⟨.withLimit b limit, rfl⟩
  paginate p h := by
    obtain ⟨b, rfl⟩ := h
    exact ⟨.paginate b p, rfl⟩

/-- Every query that can be built has a history. -/
theorem exists_run_eq {q : Select} (h : Reachable q) : ∃ b : Build, b.run = q :=
  kept_run.of_reachable h

end Build

/-- What joining a query does. The clauses of the joined query come as they are behind the one
for its table, its new columns behind those of the base, and its condition beside that of the
base; nothing else of the base changes.

So it is with queries that joined others before: however a query was built, its clauses are the
joined queries as they stand one in the other, each in front of those that it brought
along, and its condition consists of all conditions that were given on the way, to
whichever of the queries, each of them once. The statement shows both, the clauses one behind
the other and the condition behind the word WHERE. -/
theorem joined_whole :
    (∀ base other localKey foreignKey, Merged base other localKey foreignKey
        (base.joinOn (.query other) localKey foreignKey))
      ∧ (∀ q, Select.Reachable q → ∃ b : Build, b.run = q)
      ∧ ∀ b : Build, b.run.joins = JoinTree.preorderAll b.nesting
        ∧ b.run.filter.MadeOf b.given
        ∧ b.run.filter.comparisons = b.given.flatMap Node.comparisons
        ∧ ∃ columns condition,
          b.run.build.sql = "SELECT SQL_CALC_FOUND_ROWS " ++ columns ++ " FROM " ++ quote b.table
              ++ String.join ((JoinTree.preorderAll b.nesting).map fun j =>
                " INNER JOIN " ++ quote j.table
                ++ " ON " ++ quote (j.table ++ "." ++ j.localKey)
                ++ " = " ++ quote (j.base ++ "." ++ j.foreignKey))
              ++ condition ++ tailText b.run
            ∧ (b.run.filter.root = none → condition = "")
            ∧ ∀ root, b.run.filter.root = some root →
              ∃ text next, Written 1 root text next ∧ condition = " WHERE " ++ text := by
  refine ⟨merged_joinOn, fun q hq => Build.exists_run_eq hq, fun b => ⟨b.joins_run,
    b.madeOf_given, b.madeOf_given.comparisons_eq, ?_⟩⟩
  rw [← b.joins_run, ← b.table_run]
  exact exists_sql_build_eq b.run

/-- Tags joined to posts and these to authors, then one more table; a condition on each query. -/
theorem joined_whole_of_nested :
    let tags := (Build.start "tag" none).append .and (some (.binary "kind" "=" (.int 1)))
    let posts := ((Build.start "post" none).joinQuery tags "post_id" "id").append .or
      (some (.unary "kind" "IS NULL"))
    let base := (Build.start "author" none).append .and (some (.binary "kind" "=" (.int 2)))
    let authors := (base.joinQuery posts "author_id" "id").joinTable "site" "id" "site_id"
    authors.run.joins = [⟨"post", "author_id", "id", "author"⟩, ⟨"tag", "post_id", "id", "post"⟩,
        ⟨"site", "id", "site_id", "author"⟩]
      ∧ authors.run.filter.MadeOf [.binary "author.kind" "=" (.int 2),
        .binary "tag.kind" "=" (.int 1), .unary "post.kind" "IS NULL"]
      ∧ authors.run.build.sql = "SELECT SQL_CALC_FOUND_ROWS `author`.* FROM `author`"
        ++ " INNER JOIN `post` ON `post`.`author_id` = `author`.`id`"
        ++ " INNER JOIN `tag` ON `tag`.`post_id` = `post`.`id`"
        ++ " INNER JOIN `site` ON `site`.`id` = `author`.`site_id`"
        ++ " WHERE (`author`.`kind` = :value1 AND (`tag`.`kind` = :value2"
        ++ " OR `post`.`kind` IS NULL))"
      ∧ ∃ b : Build, b.run = authors.run := by
  intro tags posts base authors
  obtain ⟨-, hreached, hbuilt⟩ := joined_whole
  obtain ⟨hjoins, hmade, -⟩ := hbuilt authors
  have htags : Select.Reachable tags.run := .andWhere _ (.ofTable "tag")
  have hposts : Select.Reachable posts.run := .orWhere _ (.joinQuery _ _ (.ofTable "post") htags)
  have hbase : Select.Reachable base.run := .andWhere _ (.ofTable "author")
  refine ⟨hjoins, hmade, ?_, hreached _ (.joinTable _ _ _ (.joinQuery _ _ hbase hposts))⟩
  decide +kernel

end RecordMapper
