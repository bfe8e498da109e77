import RecordMapper.Blog.Relations

/-!
# Records described by data

A graph gives records by description: what they store, which relations they
declare, and what each relation leads to, by the identifiers of other records of
the graph. Cycles are allowed. A relation may also lead to a query, whose rows
are records of the blog.
-/

namespace RecordMapper.Blog

/-- Where a relation of a described record leads. -/
inductive Link where
  | absent
  | scalar (v : Value)
  | one (target : String)
  | many (targets : List String)
  | list (items : List Link)
  /-- A query to run later, or the error met in building it. -/
  | deferred (q : Except Error Select)
  | failing (e : Error)

/-- A described record. -/
structure Described where
  id : String
  descriptor : Descriptor
  fields : Fields
  declared : List String
  links : List (String × Link)
  reference : Option Json

/-- A record of a graph: described, or of the blog. -/
inductive GraphRecord where
  | described (d : Described)
  | stored (r : Record)

namespace GraphRecord

instance : Entity GraphRecord where
  model
    | .described d => ⟨d.descriptor, []⟩
    | .stored r => Entity.model r
  fields
    | .described d => d.fields
    | .stored r => r.fields
  relations
    | .described d => d.declared
    | .stored r => Entity.relations r
  reference
    | .described d => d.reference
    | .stored r => Entity.reference r

/-- The identifier within the graph. -/
def id? : GraphRecord → Option String
  | .described d => some d.id
  | .stored _ => none

end GraphRecord

abbrev Graph := List Described

namespace Graph

def find? (g : Graph) (id : String) : Option GraphRecord :=
  (List.find? (fun d => d.id == id) g).map .described

mutual

/-- What a link leads to. An identifier outside the graph leads nowhere. -/
def follow (g : Graph) : Link → Except Error (Relation GraphRecord)
  | .absent => .ok .absent
  | .scalar v => .ok (.scalar v)
  | .one target => .ok (.optional (g.find? target))
  | .many targets => .ok (.many (targets.filterMap g.find?))
  | .list items => (followAll g items).map .list
  | .deferred q => q.map .deferred
  | .failing e => .error e
termination_by structural link => link

def followAll (g : Graph) : List Link → Except Error (List (Relation GraphRecord))
  | [] => .ok []
  | x :: rest => do
      let r ← follow g x
      let rs ← followAll g rest
      .ok (r :: rs)
termination_by structural l => l

end

mutual

/-- A relation between records of the blog, in a graph. -/
def lift : Relation Record → Relation GraphRecord
  | .absent => .absent
  | .scalar v => .scalar v
  | .one r => .one (.stored r)
  | .many rs => .many (rs.map .stored)
  | .list items => .list (liftAll items)
  | .deferred q => .deferred q
termination_by structural relation => relation

def liftAll : List (Relation Record) → List (Relation GraphRecord)
  | [] => []
  | x :: rest => lift x :: liftAll rest
termination_by structural l => l

end

/-- The schema of a graph. A name without a link leads nowhere. -/
def schema {σ : Type} (g : Graph) (db : Engine σ) : Schema σ GraphRecord where
  resolve r relation :=
    match r with
    | .described d =>
        match d.links.find? fun l => l.1 == relation with
        | some (_, link) => .settle (g.follow link)
        | none => pure .absent
    | .stored r => do
        let relation ← r.resolve db relation
        pure (lift relation)
  load m fields := (Blog.load m fields).map .stored

end Graph

end RecordMapper.Blog
