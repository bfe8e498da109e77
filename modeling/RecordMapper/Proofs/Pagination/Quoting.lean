import Mathlib
import RecordMapper.Proofs.Pagination.Request
import RecordMapper.Proofs.Query.Tokens

/-!
# What a request can write into a statement

The names and operands of a request are arbitrary text. In the statement of a bare
table with a page applied to it, none of that text stands outside of back-quotes:
besides its identifiers the statement consists of its own words and marks, accepted
operators, placeholders of operands that are bound, and the numbers of the LIMIT
clause (`lex_paginate`). Operators are accepted or refused when an encoded filter is
read, directions when a sort key is; fields are quoted and operands are bound.
-/

namespace RecordMapper

open Query

namespace Pagination

theorem operatorTexts_conjunction (nodes : List Filter.Node) (f : Filter) :
    (nodes.foldl (fun f node => f.push .and node) f).operatorTexts
      = f.operatorTexts ++ nodes.flatMap Filter.Node.operators :=
  Filter.elim_root_foldl_push (fun _ _ _ => rfl) nodes f

/-- The operators of a request are those of transport. -/
theorem accepted_of_ofPairs {config : PaginationConfig} {pairs : List (String × String)}
    {p : Pagination} (h : ofPairs config pairs = .ok p) :
    ∀ op ∈ p.filter.operatorTexts, op ∈ Filter.operators := by
  obtain ⟨sent, hsent, hfilter⟩ := filter_of_ofPairs h
  have haccepted : ∀ op ∈ sent.operatorTexts, op ∈ Filter.operators := by
    unfold requestedFilter at hsent
    split at hsent
    · cases hsent
      exact fun op hop => by cases hop
    · exact Filter.accepted_of_decode hsent
  intro op hop
  rw [hfilter, Filter.conjunction, operatorTexts_conjunction, List.flatMap_append,
    List.mem_append, List.mem_append] at hop
  rcases hop with hop | hop | hop
  · cases hop
  · obtain ⟨root⟩ := sent
    cases root with
    | none => cases hop
    | some node => exact haccepted op (by simpa [Filter.operatorTexts] using hop)
  · obtain ⟨node, hnode, hop⟩ := List.mem_flatMap.mp hop
    obtain ⟨e, -, rfl⟩ := List.mem_map.mp hnode
    unfold comparison at hop
    split at hop
    · obtain rfl := List.mem_singleton.mp hop
      decide
    · obtain rfl := List.mem_singleton.mp hop
      decide

end Pagination

namespace Query

/-! ## What a statement may show -/

/-- A token that stands for no text of a request, in a statement with so many values. -/
def Token.Fixed (count : Nat) : Token → Prop
  | .blank => True
  | .identifier _ => True
  | .operator op => op ∈ Filter.operators
  | .word w => w ∈ keywords
  | .placeholder name => ∃ number, 1 ≤ number ∧ number ≤ count ∧ name = Query.placeholder number
  | .mark c => c ∈ marks

theorem fixed_condition {count : Nat} : ∀ (node : Filter.Node) {first : Nat},
    (∀ op ∈ node.operators, op ∈ Filter.operators) → 1 ≤ first →
      first + (operands node).length ≤ count + 1 →
      ∀ t ∈ conditionTokens first node, t.Fixed count
  | .comparison field op none, first, hops, _, _ => by
      have hop := hops op (List.mem_singleton_self _)
      simp [conditionTokens, Token.Fixed, hop]
  | .comparison field op (some v), first, hops, hfirst, hcount => by
      have hop := hops op (List.mem_singleton_self _)
      have hlast : first ≤ count := by
        simp only [operands, Option.toList_some, List.length_singleton] at hcount
        omega
      have hbound : (Token.placeholder (placeholder first)).Fixed count :=
        ⟨first, hfirst, hlast, rfl⟩
      simp only [conditionTokens, List.forall_mem_cons]
      exact ⟨trivial, trivial, hop, trivial, hbound, List.forall_mem_nil _⟩
  | .logical op left right, first, hops, hfirst, hcount => by
      rw [Filter.Node.operators, List.forall_mem_append] at hops
      rw [operands, List.length_append] at hcount
      have hleft : ∀ t ∈ conditionTokens first left, t.Fixed count :=
        fixed_condition left hops.1 hfirst (by omega)
      have hright : ∀ t ∈ conditionTokens (first + (operands left).length) right,
          t.Fixed count := fixed_condition right hops.2 (by omega) (by omega)
      have hword : op.keyword ∈ keywords := by cases op <;> decide
      have hopen : '(' ∈ marks := by decide
      have hclose : ')' ∈ marks := by decide
      simp only [conditionTokens, List.forall_mem_cons, List.forall_mem_append]
      exact ⟨hopen, hleft, trivial, hword, trivial, hright, hclose, List.forall_mem_nil _⟩

/-! ## Sort keys -/

def orderItems : List (String × Direction) → List Token
  | [] => []
  | [e] => [.identifier e.1, .blank, .word e.2.keyword]
  | e :: e' :: rest =>
      .identifier e.1 :: .blank :: .word e.2.keyword :: .mark ',' :: .blank ::
        orderItems (e' :: rest)

def orderTokens : List (String × Direction) → List Token
  | [] => []
  | e :: rest =>
      .blank :: .word "ORDER" :: .blank :: .word "BY" :: .blank :: orderItems (e :: rest)

theorem text_orderItems : ∀ entries : List (String × Direction),
    (orderItems entries).flatMap Token.text = ", ".toList.intercalate (entries.map orderItem)
  | [] => rfl
  | [e] => by simp [orderItems, Token.text, orderItem]
  | e :: e' :: rest => by
      have ih := text_orderItems (e' :: rest)
      rw [List.map_cons, List.map_cons, List.intercalate_cons_cons, ← List.map_cons, ← ih]
      simp [orderItems, Token.text, orderItem]

theorem text_orderTokens (q : Select) :
    (orderTokens q.orders.entries).flatMap Token.text = (orderText q).toList := by
  cases hentries : q.orders.entries with
  | nil => simp [orderText, OrderedMap.isEmpty, hentries, orderTokens]
  | cons e rest =>
      have hsome : q.orders.isEmpty = false := by simp [OrderedMap.isEmpty, hentries]
      have hitems := text_orderItems (e :: rest)
      rw [toList_orderText hsome, hentries, ← hitems]
      simp [orderTokens, Token.text]

theorem keyword_direction (d : Direction) : d.keyword ∈ keywords := by
  cases d <;> decide

theorem readable_orderItems : ∀ (entries : List (String × Direction)) {after : List Token},
    Ends after → Readable after → Readable (orderItems entries ++ after)
  | [], after, _, hafter => hafter
  | [e], after, hends, hafter =>
      ⟨Read.token_identifier e.1 (Read.endsIdentifier_of_head (by decide) (by decide)),
        Read.token_blank _, Read.token_keyword (keyword_direction e.2) hends.endsName, hafter⟩
  | e :: e' :: rest, after, hends, hafter =>
      ⟨Read.token_identifier e.1 (Read.endsIdentifier_of_head (by decide) (by decide)),
        Read.token_blank _,
        Read.token_keyword (keyword_direction e.2) (endsName_cons (by decide)),
        Read.token_mark (by decide) _, Read.token_blank _,
        readable_orderItems (e' :: rest) hends hafter⟩

theorem fixed_orderItems (count : Nat) : ∀ entries : List (String × Direction),
    ∀ t ∈ orderItems entries, t.Fixed count
  | [] => by simp [orderItems]
  | [e] => by simp [orderItems, Token.Fixed, keyword_direction]
  | e :: e' :: rest => by
      have ih := fixed_orderItems count (e' :: rest)
      have hcomma : ',' ∈ marks := by decide
      simpa [orderItems, Token.Fixed, keyword_direction, hcomma] using ih

theorem fixed_orderTokens (count : Nat) : ∀ entries : List (String × Direction),
    ∀ t ∈ orderTokens entries, t.Fixed count
  | [] => by simp [orderTokens]
  | e :: rest => by
      have horder : "ORDER" ∈ keywords := by decide
      have hby : "BY" ∈ keywords := by decide
      simp only [orderTokens, List.forall_mem_cons]
      exact ⟨trivial, horder, trivial, hby, trivial, fixed_orderItems count (e :: rest)⟩

theorem ends_orderTokens {after : List Token} (h : Ends after) :
    ∀ entries : List (String × Direction), Ends (orderTokens entries ++ after)
  | [] => h
  | e :: rest => .blank _ (by decide)

theorem readable_orderTokens {after : List Token} (hends : Ends after) (hafter : Readable after) :
    ∀ entries : List (String × Direction), Readable (orderTokens entries ++ after)
  | [] => hafter
  | e :: rest =>
      ⟨Read.token_blank _, Read.token_keyword (by decide) (endsName_cons (by decide)),
        Read.token_blank _, Read.token_keyword (by decide) (endsName_cons (by decide)),
        Read.token_blank _, readable_orderItems (e :: rest) hends hafter⟩

/-! ## Bounds -/

def limitTokens (offset : Nat) : Option Nat → List Token
  | none => []
  | some limit =>
      [.blank, .word "LIMIT", .blank, .word offset.repr, .mark ',', .blank, .word limit.repr]

theorem text_limitTokens (q : Select) :
    (limitTokens q.offset q.limit).flatMap Token.text = (limitText q).toList := by
  unfold limitText
  cases q.limit with
  | none => rfl
  | some limit => simp [limitTokens, Token.text]

theorem ends_limitTokens (offset : Nat) : ∀ limit : Option Nat, Ends (limitTokens offset limit)
  | none => .nil
  | some limit => .blank _ (by decide)

theorem readable_limitTokens (offset : Nat) : ∀ limit : Option Nat,
    Readable (limitTokens offset limit)
  | none => trivial
  | some limit => by
      have hname : "LIMIT".toList.all isNameChar = true := by decide
      have hword := List.all_eq_true.mp hname
      exact ⟨Read.token_blank _,
        Read.token_word hword rfl (by decide) (endsName_cons (by decide)), Read.token_blank _,
        Read.token_number offset (endsName_cons (by decide)), Read.token_mark (by decide) _,
        Read.token_blank _, Read.token_number limit endsName_nil, trivial⟩

/-! ## Whole statements -/

def whereTokens : Option Filter.Node → List Token
  | none => []
  | some root => .blank :: .word "WHERE" :: .blank :: conditionTokens 1 root

def headTokens (table : String) : List Token :=
  [.word "SELECT", .blank, .word "SQL_CALC_FOUND_ROWS", .blank, .identifier table, .mark '.',
    .mark '*', .blank, .word "FROM", .blank, .identifier table]

/-- The statement of a query without columns and joins, up to its bounds. -/
def bodyTokens (q : Select) : List Token :=
  headTokens q.table ++ (whereTokens q.filter.root ++ orderTokens q.orders.entries)

theorem text_bodyTokens {q : Select} (hcolumns : q.columns.names = []) (hjoins : q.joins = []) :
    (bodyTokens q ++ limitTokens q.offset q.limit).flatMap Token.text = q.build.sql.toList := by
  have hlist : columnList q = [quote q.table ++ ".*"] := by
    simp [columnList, selectsOwn, hcolumns]
  have horders := text_orderTokens q
  have hlimit := text_limitTokens q
  cases hroot : q.filter.root with
  | none =>
      rw [sql_build_of_none hroot]
      simp [bodyTokens, headTokens, whereTokens, hroot, Token.text, toList_headText, hlist, hjoins,
        tailText, horders, hlimit]
  | some root =>
      have hcondition := text_conditionTokens root 1
      rw [sql_build_of_some hroot]
      simp [bodyTokens, headTokens, whereTokens, hroot, Token.text, toList_headText, hlist, hjoins,
        tailText, horders, hlimit, hcondition]

theorem readable_whereTokens {root : Option Filter.Node} {after : List Token}
    (hops : ∀ op ∈ (Filter.mk root).operatorTexts, op ∈ Filter.operators) (hends : Ends after)
    (hafter : Readable after) : Readable (whereTokens root ++ after) := by
  cases root with
  | none => exact hafter
  | some root =>
      exact ⟨Read.token_blank _, Read.token_keyword (by decide) (endsName_cons (by decide)),
        Read.token_blank _, readable_condition root hops hends hafter⟩

theorem ends_whereTokens {root : Option Filter.Node} {after : List Token} (h : Ends after) :
    Ends (whereTokens root ++ after) := by
  cases root with
  | none => exact h
  | some root => exact .blank _ (by decide)

theorem readable_headTokens (table : String) {after : List Token} (hends : Ends after)
    (hafter : Readable after) : Readable (headTokens table ++ after) := by
  have hstar : ∀ rest, Read.EndsIdentifier ('.' :: '*' :: rest) := by
    intro rest more
    constructor <;> intro h <;> simp [backquote] at h
  exact ⟨Read.token_keyword (by decide) (endsName_cons (by decide)), Read.token_blank _,
    Read.token_keyword (by decide) (endsName_cons (by decide)), Read.token_blank _,
    Read.token_identifier table (hstar _), Read.token_mark (by decide) _,
    Read.token_mark (by decide) _, Read.token_blank _,
    Read.token_keyword (by decide) (endsName_cons (by decide)), Read.token_blank _,
    Read.token_identifier table hends.endsIdentifier, hafter⟩

theorem readable_bodyTokens {q : Select}
    (hops : ∀ op ∈ q.filter.operatorTexts, op ∈ Filter.operators) :
    Readable (bodyTokens q ++ limitTokens q.offset q.limit) := by
  have hlimit := ends_limitTokens q.offset q.limit
  have horders := ends_orderTokens hlimit q.orders.entries
  rw [bodyTokens, List.append_assoc, List.append_assoc]
  exact readable_headTokens _ (ends_whereTokens horders) <|
    readable_whereTokens hops horders <|
      readable_orderTokens hlimit (readable_limitTokens _ _) _

theorem fixed_bodyTokens {q : Select}
    (hops : ∀ op ∈ q.filter.operatorTexts, op ∈ Filter.operators) :
    ∀ t ∈ bodyTokens q, t.Fixed q.build.values.size := by
  have hsize : q.build.values.size = (bound q).length := by
    rw [OrderedMap.size, entries_values_build, numbered_eq_zip]
    simp
  have hhead : ∀ t ∈ headTokens q.table, t.Fixed q.build.values.size := by
    simp [headTokens, Token.Fixed, keywords, marks]
  have hwhere : ∀ t ∈ whereTokens q.filter.root, t.Fixed q.build.values.size := by
    cases hroot : q.filter.root with
    | none => simp [whereTokens]
    | some root =>
        rw [Filter.operatorTexts, hroot] at hops
        have hword : "WHERE" ∈ keywords := by decide
        have hbound : bound q = operands root := by rw [bound, hroot]
        rw [hsize, hbound]
        simp only [whereTokens, List.forall_mem_cons]
        exact ⟨trivial, hword, trivial, fixed_condition root hops (Nat.le_refl 1) (by omega)⟩
  rw [bodyTokens, List.forall_mem_append, List.forall_mem_append]
  exact ⟨hhead, hwhere, fixed_orderTokens _ _⟩

/-- The statement for a table and the page that a request's pairs are read as, in tokens. No
back-quote is left open, the tokens are the whole text, and none of them but the
identifiers is made of text from the request: before the LIMIT clause stand fixed words
and marks, accepted operators, and placeholders of values that are bound; the clause
itself shows two numbers. -/
theorem lex_paginate {config : PaginationConfig} {pairs : List (String × String)}
    {p : Pagination} (hp : Pagination.ofPairs config pairs = .ok p) (table : String) :
    let q := (Select.ofTable table).paginate p
    ∃ body, lex q.build.sql.toList = some (body ++ limitTokens p.offset p.limit)
      ∧ (body ++ limitTokens p.offset p.limit).flatMap Token.text = q.build.sql.toList
      ∧ ∀ t ∈ body, t.Fixed q.build.values.size := by
  intro q
  have hops : ∀ op ∈ q.filter.operatorTexts, op ∈ Filter.operators := by
    have hfilter : q.filter = p.filter.qualify table := by
      obtain ⟨⟨root⟩, orders, offset, limit⟩ := p
      cases root <;> rfl
    rw [hfilter, Filter.operatorTexts_qualify]
    exact Pagination.accepted_of_ofPairs hp
  have htext : (bodyTokens q ++ limitTokens p.offset p.limit).flatMap Token.text
      = q.build.sql.toList := text_bodyTokens rfl rfl
  refine ⟨bodyTokens q, ?_, htext, fixed_bodyTokens hops⟩
  rw [← htext]
  exact lex_of_readable (readable_bodyTokens hops)

/-- Back-quotes, points, words and placeholders in a table's name and in everything that a
request can choose. -/
theorem lex_paginate_hostile :
    let pairs := [("a` = 1 OR (`b", "x' OR :value1"), ("order", "c`) AND (`d,desc"),
      ("filter", "eyJsaWtlIjpbImQuYCIsIjp2YWx1ZTkiXX0=")]
    ∃ p, Pagination.ofPairs default pairs = .ok p
      ∧ let q := (Select.ofTable "t` WHERE `t.").paginate p
        ∃ body, lex q.build.sql.toList = some (body ++ limitTokens p.offset p.limit)
          ∧ (body ++ limitTokens p.offset p.limit).flatMap Token.text = q.build.sql.toList
          ∧ ∀ t ∈ body, t.Fixed q.build.values.size := by
  intro pairs
  have hsent : Pagination.requestedFilter pairs
      = .ok ⟨some (.binary "d.`" "LIKE" (.text ":value9"))⟩ := by
    cbv
  have horder : Pagination.readOrder "c`) AND (`d,desc" = .ok ("c`) AND (`d", .descending) := by
    have hfield : Text.trim "c`) AND (`d" = "c`) AND (`d" := by decide +kernel
    have hdirection : Direction.parse "desc" = .ok .descending := rfl
    simp [Pagination.readOrder, hfield, hdirection]
    rfl
  have horders : (Pagination.ofConfig default).addOrderTokens ["c`) AND (`d,desc"]
      = .ok ((Pagination.ofConfig default).addOrder "c`) AND (`d" .descending) := by
    rw [Pagination.addOrderTokens, Pagination.addOrderToken, horder]
    rfl
  obtain ⟨p, hp⟩ : ∃ p, Pagination.ofPairs default pairs = .ok p :=
    ⟨_, Pagination.ofPairs_eq_ok_iff.mpr ⟨_, _, horders, hsent, rfl⟩⟩
  exact ⟨p, hp, lex_paginate hp "t` WHERE `t."⟩

end Query

end RecordMapper
