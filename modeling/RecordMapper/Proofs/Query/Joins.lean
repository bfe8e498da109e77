import RecordMapper.Proofs.Query.Layout
import RecordMapper.Proofs.Query.Reachable

/-!
# Joins relate to tables at hand

A join clause names the table that it adds and a base table that its rows are matched with.
A query that is joined brings its own clauses along, whose base is not the table of the
query that takes them up. They stand right behind the clause that adds the
joined query's table, and so each clause of a statement finds its base before it
(`joins_rooted`), however the queries were nested and whatever was joined in between.
-/

namespace RecordMapper

open Query

namespace Query

/-- The base of each clause is this table, or that of an earlier clause. -/
def Rooted (table : String) (joins : List Join) : Prop :=
  ∀ earlier j later, joins = earlier ++ j :: later →
    j.base = table ∨ ∃ i ∈ earlier, i.table = j.base

theorem rooted_nil (table : String) : Rooted table [] := by
  intro earlier j later h
  simp at h

theorem rooted_singleton {table : String} {j : Join} (h : j.base = table) : Rooted table [j] := by
  intro earlier j' later hsplit
  obtain ⟨rfl, hcons⟩ : earlier = [] ∧ [j] = j' :: later := by
    cases earlier with
    | nil => exact ⟨rfl, hsplit⟩
    | cons i rest => simp at hsplit
  cases hcons
  exact .inl h

/-- Clauses may follow that are rooted in a table that is there. -/
theorem Rooted.append {table table' : String} {joins joins' : List Join} (h : Rooted table joins)
    (h' : Rooted table' joins') (hthere : table' = table ∨ ∃ i ∈ joins, i.table = table') :
    Rooted table (joins ++ joins') := by
  intro earlier j later hsplit
  rcases List.append_eq_append_iff.mp hsplit with ⟨rest, rfl, hrest⟩ | ⟨rest, hjoins, hrest⟩
  · rcases h' rest j later hrest with hbase | ⟨i, hi, hbase⟩
    · rcases hthere with rfl | ⟨i, hi, rfl⟩
      · exact .inl hbase
      · exact .inr ⟨i, List.mem_append_left _ hi, hbase.symm⟩
    · exact .inr ⟨i, List.mem_append_right _ hi, hbase⟩
  · cases rest with
    | nil =>
        -- at the seam: nothing of the later clauses stands before this one
        obtain rfl : joins = earlier := by simpa using hjoins
        rcases h' [] j later hrest.symm with hbase | ⟨i, hi, -⟩
        · rcases hthere with rfl | ⟨i, hi, rfl⟩
          · exact .inl hbase
          · exact .inr ⟨i, hi, hbase.symm⟩
        · cases hi
    | cons j' rest =>
        obtain ⟨rfl, -⟩ := List.cons.inj hrest
        exact h earlier j rest hjoins

end Query

namespace Select

theorem kept_rooted : Kept fun q => Rooted q.table q.joins where
  ofTable table _ := rooted_nil table
  select _ h := h
  append _ _ h := h
  joinTable _ _ _ h := h.append (rooted_singleton rfl) (.inl rfl)
  joinQuery {q other} localKey foreignKey h hother := by
    -- the clause of the joined query's table stands before that query's own clauses
    let clause := q.joinClause other.table localKey foreignKey
    have hclause : Rooted q.table (clause :: other.joins) :=
      (rooted_singleton (j := clause) rfl).append hother
        (.inr ⟨clause, List.mem_singleton_self _, rfl⟩)
    exact h.append hclause (.inl rfl)
  order _ _ h := h
  withOffset _ h := h
  withLimit _ h := h
  paginate _ h := h

/-- In the statement of a query that can be built, each join clause relates the table that it
adds to the query's own table or to one that an earlier clause has added. -/
theorem joins_rooted {q : Select} (h : Reachable q) :
    (∀ earlier j later, q.joins = earlier ++ j :: later →
        j.base = q.table ∨ ∃ i ∈ earlier, i.table = j.base)
      ∧ ∃ columns rest, q.build.sql = "SELECT SQL_CALC_FOUND_ROWS " ++ columns ++ " FROM "
        ++ quote q.table
        ++ String.join (q.joins.map fun j => " INNER JOIN " ++ quote j.table
          ++ " ON " ++ quote (j.table ++ "." ++ j.localKey)
          ++ " = " ++ quote (j.base ++ "." ++ j.foreignKey)) ++ rest := by
  obtain ⟨columns, condition, hsql, -⟩ := exists_sql_build_eq q
  rw [String.append_assoc] at hsql
  exact ⟨kept_rooted.of_reachable h, columns, _, hsql⟩

/-- Two queries one within the other, and a table joined after them. -/
theorem joins_rooted_of_nested :
    let tags := (ofTable "tag").join (.table "tag_text") "tag_id"
    let posts := (ofTable "post").joinOn (.query tags) "post_id" "id"
    let q := ((ofTable "author").joinOn (.query posts) "author_id" "id").join (.table "site") "id"
    q.joins.map (fun j => (j.table, j.base)) = [("post", "author"), ("tag", "post"),
        ("tag_text", "tag"), ("site", "author")]
      ∧ q.build.sql = "SELECT SQL_CALC_FOUND_ROWS `author`.* FROM `author`"
        ++ " INNER JOIN `post` ON `post`.`author_id` = `author`.`id`"
        ++ " INNER JOIN `tag` ON `tag`.`post_id` = `post`.`id`"
        ++ " INNER JOIN `tag_text` ON `tag_text`.`tag_id` = `tag`.`tag_id`"
        ++ " INNER JOIN `site` ON `site`.`id` = `author`.`id`"
      ∧ (∀ earlier j later, q.joins = earlier ++ j :: later →
        j.base = q.table ∨ ∃ i ∈ earlier, i.table = j.base)
      ∧ ∃ columns rest, q.build.sql = "SELECT SQL_CALC_FOUND_ROWS " ++ columns ++ " FROM "
        ++ quote q.table
        ++ String.join (q.joins.map fun j => " INNER JOIN " ++ quote j.table
          ++ " ON " ++ quote (j.table ++ "." ++ j.localKey)
          ++ " = " ++ quote (j.base ++ "." ++ j.foreignKey)) ++ rest := by
  intro tags posts q
  have htags : Reachable tags := (Reachable.ofTable "tag").join_table "tag_text" "tag_id"
  have hposts : Reachable posts := .joinQuery _ _ (.ofTable "post") htags
  have hq : Reachable q :=
    (Reachable.joinQuery _ _ (.ofTable "author") hposts).join_table "site" "id"
  exact ⟨rfl, by decide +kernel, joins_rooted hq⟩

end Select

end RecordMapper
