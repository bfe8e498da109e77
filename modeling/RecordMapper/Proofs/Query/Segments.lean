import RecordMapper.Proofs.Query.Substitution
import RecordMapper.Proofs.Text.Split
import RecordMapper.Text.Reader

/-!
# Identifiers segment by segment

The points of a name cut it into segments, and an identifier is written by writing these one by
one: each between back-quotes, its own back-quotes doubled, with points between them
(`toList_quote_of_pieces`). A reader that knows this much and no more takes an identifier apart
again. A segment ends at the first back-quote that no other follows, and after it a point
announces the next segment. So it is read to its end, and no further, if what follows begins
with neither, whatever the name holds (`quote_closes`).
-/

namespace RecordMapper.Query

open Text

/-! ## Segments as written -/

/-- The inside of a segment, back-quotes doubled. -/
def doubled (segment : List Char) : List Char :=
  segment.flatMap fun c => if c = backquote then [backquote, backquote] else [c]

theorem doubled_cons (c : Char) (segment : List Char) :
    doubled (c :: segment)
      = (if c = backquote then [backquote, backquote] else [c]) ++ doubled segment :=
  List.flatMap_cons

/-- A segment between its back-quotes. -/
def quoteSegment (segment : List Char) : List Char :=
  backquote :: (doubled segment ++ [backquote])

theorem quoteRest_append {segment : List Char} (h : '.' ∉ segment) (cs : List Char) :
    quoteRest (segment ++ cs) = doubled segment ++ quoteRest cs := by
  induction segment with
  | nil => rfl
  | cons c segment ih =>
      rw [List.mem_cons, not_or] at h
      have hc : ¬ c = '.' := fun he => h.1 he.symm
      rw [List.cons_append, quoteRest, if_neg hc, ih h.2, doubled_cons]
      split <;> rfl

/-- An identifier is its segments, each between its own back-quotes. -/
theorem quoteRest_intercalate : ∀ {pieces : List (List Char)}, pieces ≠ [] →
    (∀ piece ∈ pieces, '.' ∉ piece) →
    backquote :: quoteRest (['.'].intercalate pieces) = ['.'].intercalate (pieces.map quoteSegment)
  | [piece], _, h => by
      have hrest := quoteRest_append (h piece (List.mem_singleton_self piece)) []
      rw [List.append_nil] at hrest
      rw [List.intercalate_singleton, hrest, List.map_singleton, List.intercalate_singleton]
      rfl
  | piece :: next :: more, _, h => by
      have ih := quoteRest_intercalate (List.cons_ne_nil next more)
        fun other hother => h other (List.mem_cons_of_mem piece hother)
      rw [List.map_cons, List.intercalate_cons_cons, List.map_cons, List.intercalate_cons_cons,
        ← List.map_cons, ← ih, List.append_assoc, quoteRest_append (h piece List.mem_cons_self),
        List.singleton_append, quoteRest, if_pos rfl]
      simp only [quoteSegment, List.cons_append, List.append_assoc, List.nil_append]

theorem toList_quote_of_pieces {name : String} {pieces : List (List Char)} (hne : pieces ≠ [])
    (hpoint : ∀ piece ∈ pieces, '.' ∉ piece) (hname : name.toList = ['.'].intercalate pieces) :
    (quote name).toList = ['.'].intercalate (pieces.map quoteSegment) := by
  rw [toList_quote, hname, quoteRest_intercalate hne hpoint]

/-! ## Reading segments -/

namespace Read

/-- A segment behind its first back-quote, up to and with its last. -/
def segment : Reader (List Char)
  | [] => none
  | c :: rest =>
      if c = backquote then
        match rest with
        | [] => some ([], [])
        | d :: behind =>
            if d = backquote then
              (segment behind).map fun (cs, rest) => (backquote :: cs, rest)
            else some ([], d :: behind)
      else (segment rest).map fun (cs, rest) => (c :: cs, rest)

theorem length_segment {cs read rest : List Char} :
    segment cs = some (read, rest) → rest.length < cs.length := by
  fun_induction segment cs generalizing read rest with
  | case1 => simp
  | case2 => simp_all
  | case3 => grind [Option.map_eq_some_iff]
  | case4 => simp_all
  | case5 => grind [Option.map_eq_some_iff]

/-- Segments with points between them. -/
def segments : Reader (List String)
  | [] => none
  | c :: cs =>
      if c = backquote then
        match _hread : segment cs with
        | none => none
        | some (first, []) => some ([String.ofList first], [])
        | some (first, d :: rest) =>
            if d = '.' then
              (segments rest).map fun (more, rest) => (String.ofList first :: more, rest)
            else some ([String.ofList first], d :: rest)
      else none
termination_by cs => cs.length
decreasing_by
  have hlength := length_segment ‹_›
  simp only [List.length_cons] at hlength ⊢
  omega

theorem segment_doubled {rest : List Char} (h : rest.head? ≠ some backquote) :
    ∀ cs : List Char, segment (doubled cs ++ backquote :: rest) = some (cs, rest)
  | [] => by
      cases rest with
      | nil => rfl
      | cons d rest =>
          have hd : ¬ d = backquote := fun he => h (congrArg some he)
          simp [doubled, segment, hd]
  | c :: cs => by
      have ih := segment_doubled h cs
      rw [doubled_cons]
      by_cases hc : c = backquote
      · subst hc
        simp [segment, ih]
      · rw [if_neg hc, List.singleton_append, List.cons_append, segment.eq_def]
        simp only [if_neg hc, ih, Option.map_some]

theorem segments_of_last {cs first rest : List Char} (h : segment cs = some (first, rest))
    (hend : rest.head? ≠ some '.') :
    segments (backquote :: cs) = some ([String.ofList first], rest) := by
  rw [segments, if_pos rfl]
  split
  · next hnone => cases h.symm.trans hnone
  · next hsome =>
      cases h.symm.trans hsome
      rfl
  · next d behind hsome =>
      cases h.symm.trans hsome
      rw [if_neg fun hd => hend (congrArg some hd)]

theorem segments_of_point {cs first rest : List Char} (h : segment cs = some (first, '.' :: rest)) :
    segments (backquote :: cs)
      = (segments rest).map fun (more, rest) => (String.ofList first :: more, rest) := by
  rw [segments, if_pos rfl]
  split
  · next hnone => cases h.symm.trans hnone
  · next hsome => cases h.symm.trans hsome
  · next d behind hsome =>
      cases h.symm.trans hsome
      rw [if_pos rfl]

/-- The text begins with neither a back-quote nor a point. -/
def EndsSegments (rest : List Char) : Prop :=
  rest.head? ≠ some backquote ∧ rest.head? ≠ some '.'

instance (rest : List Char) : Decidable (EndsSegments rest) := inferInstanceAs (Decidable (_ ∧ _))

theorem segments_intercalate {rest : List Char} (h : EndsSegments rest) :
    ∀ {pieces : List (List Char)}, pieces ≠ [] →
      segments (['.'].intercalate (pieces.map quoteSegment) ++ rest)
        = some (pieces.map String.ofList, rest)
  | [piece], _ => by
      rw [List.map_singleton, List.intercalate_singleton, quoteSegment, List.cons_append,
        List.append_assoc, List.singleton_append]
      exact segments_of_last (segment_doubled h.1 piece) h.2
  | piece :: next :: more, _ => by
      have ih := segments_intercalate h (List.cons_ne_nil next more)
      let behind := ['.'].intercalate ((next :: more).map quoteSegment) ++ rest
      have hpoint : ('.' :: behind).head? ≠ some backquote :=
        fun he => absurd (Option.some.inj he) (by decide)
      have htext : ['.'].intercalate ((piece :: next :: more).map quoteSegment) ++ rest
          = backquote :: (doubled piece ++ backquote :: '.' :: behind) := by
        rw [List.map_cons, List.map_cons, List.intercalate_cons_cons, ← List.map_cons, quoteSegment]
        simp only [List.cons_append, List.append_assoc, List.nil_append, behind]
      rw [htext, segments_of_point (segment_doubled hpoint piece), ih]
      rfl

/-- What is read of an identifier: its segments, and nothing of what follows. -/
theorem exists_segments_quote (name : String) {rest : List Char} (h : EndsSegments rest) :
    ∃ parts, segments ((quote name).toList ++ rest) = some (parts, rest)
      ∧ String.intercalate "." parts = name ∧ (∀ part ∈ parts, '.' ∉ part.toList)
      ∧ (quote name).toList = ['.'].intercalate (parts.map fun part => quoteSegment part.toList) := by
  obtain ⟨pieces, hne, hname, hpoint⟩ := exists_intercalate '.' name.toList
  have hquote := toList_quote_of_pieces hne hpoint hname
  refine ⟨pieces.map String.ofList, ?_, ?_, ?_, ?_⟩
  · rw [hquote, segments_intercalate h hne]
  · rw [← String.toList_inj, String.toList_intercalate, hname, List.map_map]
    simp [Function.comp_def]
  · intro part hpart
    obtain ⟨piece, hpiece, rfl⟩ := List.mem_map.mp hpart
    rw [String.toList_ofList]
    exact hpoint piece hpiece
  · rw [hquote, List.map_map]
    simp [Function.comp_def]

end Read

/-- Two identifiers that begin one text are the same, and so is what follows them. -/
theorem quote_append_inj {name other : String} {rest rest' : List Char}
    (h : Read.EndsSegments rest) (h' : Read.EndsSegments rest')
    (heq : (quote other).toList ++ rest' = (quote name).toList ++ rest) :
    other = name ∧ rest' = rest := by
  obtain ⟨parts, hread, hname, -⟩ := Read.exists_segments_quote name h
  obtain ⟨parts', hread', hother, -⟩ := Read.exists_segments_quote other h'
  rw [heq, hread] at hread'
  obtain ⟨rfl, rfl⟩ := Prod.mk.inj (Option.some.inj hread')
  exact ⟨hother.symm.trans hname, rfl⟩

theorem quote_injective : Function.Injective quote := by
  intro name other heq
  have hnil : Read.EndsSegments [] := by decide
  exact (quote_append_inj hnil hnil (congrArg (String.toList · ++ []) heq)).1

/-- Reading an identifier, whatever its name is and whatever text follows that begins with neither
a back-quote nor a point. The reader stops exactly where the identifier ends; the segments that
it has read are those of the name, which is cut at its points, and each of them stands in the
text between its own back-quotes. Hence no other name is written like this one, and a text that
begins with this identifier, followed in this way, begins with no other: the quotes close nowhere
else. -/
theorem quote_closes (name : String) {rest : List Char} (h : Read.EndsSegments rest) :
    (∃ parts, Read.segments ((quote name).toList ++ rest) = some (parts, rest)
        ∧ String.intercalate "." parts = name ∧ (∀ part ∈ parts, '.' ∉ part.toList)
        ∧ (quote name).toList
          = ['.'].intercalate (parts.map fun part => quoteSegment part.toList))
      ∧ (∀ other, quote other = quote name → other = name)
      ∧ ∀ other rest', Read.EndsSegments rest' →
        (quote other).toList ++ rest' = (quote name).toList ++ rest → other = name ∧ rest' = rest :=
  ⟨Read.exists_segments_quote name h, fun _ heq => quote_injective heq,
    fun _ _ h' heq => quote_append_inj h h' heq⟩

/-- A name of points and back-quotes, which the text of an expression follows. -/
theorem quote_closes_of_hostile :
    let name := "`.a``.. OR `b"
    let rest := " = 1".toList
    Read.EndsSegments rest
      ∧ quote name = "````.`a`````.``.` OR ``b`"
      ∧ (∃ parts, Read.segments ((quote name).toList ++ rest) = some (parts, rest)
        ∧ String.intercalate "." parts = name)
      ∧ ∀ other, quote other = quote name → other = name := by
  intro name rest
  have hrest : Read.EndsSegments rest := by decide
  obtain ⟨⟨parts, hread, hname, -⟩, hinj, -⟩ := quote_closes name hrest
  exact ⟨hrest, by decide, ⟨parts, hread, hname⟩, hinj⟩

end RecordMapper.Query
