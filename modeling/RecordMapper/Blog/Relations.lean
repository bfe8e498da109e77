import RecordMapper.Blog.Basic

/-!
# The relations of the blog

The four ways in which a relation can be answered all occur: records found at
once, a query left for hydration, a scalar computed from the record, and a list.
-/

namespace RecordMapper.Blog

namespace Record

variable {σ : Type}

/-- The condition that a column equals the same column of this record. -/
def sameColumn (r : Record) (column : String) : Option Filter.Node :=
  Filter.Node.ofTuple column "=" (some (.ofOption (r.access? column .int64)))

/-- The title in lower case, with hyphens for blanks. -/
def slug (title : String) : String :=
  String.ofList <| title.toList.map fun c => if c = ' ' then '-' else Text.foldChar c

def posts (db : Engine σ) (r : Record) : Session σ (Relation Record) := do
  let found ← Kind.post.recordType.findAll db (r.sameColumn "author_id")
  pure (.many found.items)

def parentPost (db : Engine σ) (r : Record) : Session σ (Relation Record) := do
  let found ← Kind.post.recordType.findFirst db (r.sameColumn "post_id")
  pure (.optional found)

/-- The author, as a record of the given type. -/
def author (db : Engine σ) (k : Kind) (r : Record) : Session σ (Relation Record) := do
  let found ← k.recordType.findFirst db (r.sameColumn "author_id")
  pure (.optional found)

def comments (r : Record) : Except Error (Relation Record) := do
  let q ← Kind.comment.recordType.select
  .ok (.deferred (q.andWhere (r.sameColumn "post_id")))

def resolve (db : Engine σ) (r : Record) (relation : String) :
    Session σ (Relation Record) :=
  match r.kind, relation with
  | .author, "posts" => posts db r
  | .comment, "post" => parentPost db r
  | .article, "author" => author db .authorRef r
  | .post, "author" => author db .author r
  | .post, "comments" => .settle (comments r)
  | .post, "slug" =>
      let title := (r.access? "title" .text).bind Value.asText?
      pure (.scalar (.ofOption (title.map fun s => .text (slug s))))
  | .post, "tags" => pure (.list [.scalar (.text "rust"), .absent])
  | _, _ => pure .absent

end Record

/-- Loads rows by the name of the model. -/
def load (m : Model) (fields : Fields) : Except Error Record :=
  match Kind.ofName? m.name with
  | some k => Record.ofFields k fields
  | none => .error ⟨.mapping, "no record type " ++ Error.quoted m.name⟩

def schema {σ : Type} (db : Engine σ) : Schema σ Record where
  resolve := Record.resolve db
  load := load

end RecordMapper.Blog
