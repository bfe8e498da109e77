import RecordMapper.Record.Lifecycle

/-!
# An example: the record types of a blog

Authors write posts, and posts have comments; users, their administrators and a
root above them inherit from one another; memberships have a key of two columns.
`Typed` has a column of every type, and `Note` handles the events of its life by
keeping a journal. Every type is described by the functions on `Kind`.
-/

namespace RecordMapper.Blog

inductive Kind where
  | author
  | authorRef
  | comment
  | post
  | article
  | user
  | admin
  | root
  | membership
  | typed
  | note
deriving DecidableEq, Repr

namespace Kind

def all : List Kind :=
  [.author, .authorRef, .comment, .post, .article, .user, .admin, .root, .membership,
    .typed, .note]

def name : Kind → String
  | .author => "Author"
  | .authorRef => "AuthorRef"
  | .comment => "Comment"
  | .post => "Post"
  | .article => "Article"
  | .user => "User"
  | .admin => "Admin"
  | .root => "Root"
  | .membership => "Membership"
  | .typed => "Typed"
  | .note => "Note"

def ofName? (name : String) : Option Kind :=
  all.find? fun k => k.name == name

def table : Kind → String
  | .author | .authorRef => "author"
  | .comment => "comment"
  | .post | .article => "post"
  | .user => "user"
  | .admin => "admin"
  | .root => "root"
  | .membership => "membership"
  | .typed => "typed"
  | .note => "note"

def primaryKey : Kind → List String
  | .author | .authorRef => ["author_id"]
  | .comment => ["comment_id"]
  | .post | .article => ["post_id"]
  | .user => ["user_id"]
  | .admin => ["admin_id"]
  | .root => ["root_id"]
  | .membership => ["group_id", "user_id"]
  | .typed => ["a"]
  | .note => ["note_id"]

/-- The columns that have typed accessors, in declared order. -/
def accessors : Kind → List (String × ColumnType)
  | .author | .authorRef => [("author_id", .int64), ("name", .text)]
  | .comment => [("comment_id", .int64), ("post_id", .int64), ("body", .text)]
  | .post | .article => [("post_id", .int64), ("author_id", .int64), ("title", .text)]
  | .user => [("user_id", .int64), ("email", .text)]
  | .admin => [("admin_id", .int64), ("user_id", .int64), ("level", .int32)]
  | .root => [("root_id", .int64), ("boss_id", .int64)]
  | .membership => [("group_id", .int64), ("user_id", .int64), ("role", .text)]
  | .typed =>
      [("a", .int64), ("b", .int32), ("c", .float), ("d", .bool), ("e", .text), ("f", .text),
        ("g", .value)]
  | .note => []

def columns : Kind → List String
  | .note => ["note_id", "body", "created_at"]
  | k => k.accessors.map Prod.fst

def descriptor (k : Kind) : Descriptor := ⟨k.name, k.table, k.primaryKey, k.columns⟩

def ancestors : Kind → List Ancestor
  | .admin => [⟨user.descriptor, "user_id", "user_id"⟩]
  | .root =>
      [⟨admin.descriptor, "admin_id", "boss_id"⟩, ⟨user.descriptor, "user_id", "user_id"⟩]
  | _ => []

def model (k : Kind) : Model := ⟨k.descriptor, k.ancestors⟩

def relations : Kind → List String
  | .author => ["posts"]
  | .comment => ["post"]
  | .post => ["author", "comments", "slug", "tags"]
  | .article => ["author"]
  | _ => []

end Kind

structure Record where
  kind : Kind
  fields : Fields
  /-- The events handled, oldest first. -/
  events : List String

namespace Record

/-- A typed accessor. -/
def access? (r : Record) (column : String) (type : ColumnType) : Option Value :=
  (r.fields.get? column).bind type.read

/-- What every typed accessor of the record answers. -/
def accessed (r : Record) : List (String × Option Value) :=
  r.kind.accessors.map fun c => (c.1, r.access? c.1 c.2)

/-- The reference form of an author, which names the identifier only. -/
def reference? (r : Record) : Option Json :=
  match r.kind with
  | .authorRef => (r.access? "author_id" .int64).map fun id =>
      .obj [("ref", .str ("author/" ++ id.key))]
  | _ => none

instance : Entity Record where
  model r := r.kind.model
  fields := Record.fields
  relations r := r.kind.relations
  reference := reference?

/-- The body of a note, where there is one, is text. -/
def ofFields (k : Kind) (fields : Fields) : Except Error Record :=
  match k, fields.get? "body" with
  | .note, none | .note, some .null | .note, some (.text _) => .ok ⟨k, fields, []⟩
  | .note, some _ => .error ⟨.mapping, "note body must be text"⟩
  | _, _ => .ok ⟨k, fields, []⟩

/-- Notes write every event down, and refuse the one that their `fail_hook` names. -/
def handle (e : Event) : Session Record Unit :=
  .ofOutcome fun r =>
    if r.kind = .note then
      let r := { r with events := r.events ++ [e.name] }
      if (r.fields.get? "fail_hook").bind Value.asText? = some e.name then
        (.error ⟨.mapping, e.name ++ " refused"⟩, r)
      else (.ok (), r)
    else (.ok (), r)

end Record

def Kind.recordType (k : Kind) : RecordType Record where
  model := k.model
  load := Record.ofFields k
  withFields r fields := { r with fields := fields }
  handle := Record.handle

end RecordMapper.Blog
