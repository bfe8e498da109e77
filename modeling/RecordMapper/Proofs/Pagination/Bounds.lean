import RecordMapper.Proofs.Decimal
import RecordMapper.Proofs.Pagination.Request

/-!
# The bounds of a page

A request asks for a page by its last `page` and its last `size`. If both are numbers from one
on, and the rows in front of the page can be counted in 64 bits, the page begins right behind
these rows; otherwise the bounds are the configured ones (`bounds_exact`). The size is capped
before the rows are counted, and that is why pages of one size follow one another
without a gap: what pages 1 to n show of a result, put together, is the beginning of
the result, each row once (`flatMap_shownRows`).
-/

namespace RecordMapper

/-! ## Numbers in a request -/

namespace Pagination

/-- The last pair of this name carries the number, which 64 bits hold; blanks do not matter. -/
def Asks (pairs : List (String × String)) (name : String) (n : Nat) : Prop :=
  ∃ before text after, pairs = before ++ (name, text) :: after ∧ (∀ e ∈ after, e.1 ≠ name)
    ∧ Decimal.Spells (Text.trim text) n ∧ n < Decimal.wordLimit

theorem numberOf?_eq_some_iff {name : String} {pairs : List (String × String)} {n : Nat} :
    numberOf? name pairs = some n ↔ Asks pairs name n := by
  rw [numberOf?, valuesOf, List.getLast?_map, Option.bind_eq_some_iff]
  simp only [Option.map_eq_some_iff, getLast?_filter_eq_some_iff, Decimal.readWord?_eq_some_iff]
  constructor
  · rintro ⟨_, ⟨⟨key, text⟩, ⟨before, after, hpairs, hkey, hafter⟩, rfl⟩, hspells⟩
    obtain rfl : key = name := by simpa using hkey
    exact ⟨before, text, after, hpairs, fun e he => by simpa using hafter e he, hspells⟩
  · rintro ⟨before, text, after, hpairs, hafter, hspells⟩
    exact ⟨text, ⟨(name, text), ⟨before, after, hpairs, by simp, fun e he => by
      simpa using hafter e he⟩, rfl⟩, hspells⟩

/-- The rows of a page of this size. -/
def capped (config : PaginationConfig) (size : Nat) : Nat :=
  config.maxLimit.elim size (min size)

/-- There is such a page, and the rows in front of it can be counted in 64 bits. -/
structure InRange (config : PaginationConfig) (page size : Nat) : Prop where
  page_pos : 1 ≤ page
  size_pos : 1 ≤ size
  fits : (page - 1) * capped config size < Decimal.wordLimit

theorem bounds?_eq_ite (config : PaginationConfig) (page size : Nat) :
    bounds? config page size = if page = 0 ∨ size = 0 then none
      else if (page - 1) * capped config size < Decimal.wordLimit then
        some ((page - 1) * capped config size, capped config size)
      else none := by
  unfold bounds? capped
  cases config.maxLimit <;> rfl

theorem bounds?_eq_some_iff {config : PaginationConfig} {page size offset limit : Nat} :
    bounds? config page size = some (offset, limit) ↔ InRange config page size
      ∧ limit = capped config size ∧ offset = (page - 1) * capped config size := by
  rw [bounds?_eq_ite]
  split
  · next hzero =>
      refine ⟨nofun, ?_⟩
      rintro ⟨⟨hpage, hsize, -⟩, -⟩
      omega
  · next hpos =>
      split
      · next hfits =>
          rw [Option.some.injEq, Prod.mk.injEq]
          constructor
          · rintro ⟨rfl, rfl⟩
            exact ⟨⟨by omega, by omega, hfits⟩, rfl, rfl⟩
          · rintro ⟨-, rfl, rfl⟩
            exact ⟨rfl, rfl⟩
      · next hlarge =>
          refine ⟨nofun, ?_⟩
          rintro ⟨⟨-, -, hfits⟩, -⟩
          exact absurd hfits hlarge

/-- The bounds of the page that the pairs ask for. -/
theorem requestedBounds?_eq_some_iff {config : PaginationConfig} {pairs : List (String × String)}
    {offset limit : Nat} : requestedBounds? config pairs = some (offset, limit)
      ↔ ∃ page size, Asks pairs "page" page ∧ Asks pairs "size" size
        ∧ InRange config page size ∧ limit = capped config size
        ∧ offset = (page - 1) * capped config size := by
  simp only [requestedBounds?, Option.bind_eq_bind, Option.bind_eq_some_iff,
    numberOf?_eq_some_iff, bounds?_eq_some_iff, exists_and_left]

/-! ## The bounds of a pagination -/

section Bounds

variable {config : PaginationConfig} {pairs : List (String × String)} {p : Pagination}

/-- The bounds of a page that can be reached are the page's, and those of any other request are the
configured ones. -/
theorem bounds_of_inRange (h : ofPairs config pairs = .ok p) {page size : Nat}
    (hpage : Asks pairs "page" page) (hsize : Asks pairs "size" size)
    (hrange : InRange config page size) :
    p.limit = some (capped config size) ∧ p.offset = (page - 1) * capped config size := by
  obtain ⟨keys, sent, -, -, rfl⟩ := exists_parts_of_ofPairs h
  have hbounds := requestedBounds?_eq_some_iff.mpr ⟨page, size, hpage, hsize, hrange, rfl, rfl⟩
  rw [ofParts, hbounds]
  exact ⟨rfl, rfl⟩

theorem bounds_of_not_inRange (h : ofPairs config pairs = .ok p)
    (hno : ¬ ∃ page size, Asks pairs "page" page ∧ Asks pairs "size" size
      ∧ InRange config page size) :
    p.limit = some config.defaultLimit ∧ p.offset = 0 := by
  obtain ⟨keys, sent, -, -, rfl⟩ := exists_parts_of_ofPairs h
  have hbounds : requestedBounds? config pairs = none := by
    rw [Option.eq_none_iff_forall_ne_some]
    rintro ⟨offset, limit⟩ hsome
    obtain ⟨page, size, hpage, hsize, hrange, -⟩ := requestedBounds?_eq_some_iff.mp hsome
    exact hno ⟨page, size, hpage, hsize, hrange⟩
  rw [ofParts, hbounds]
  exact ⟨rfl, rfl⟩

end Bounds

/-! ## Pages of one size -/

/-- The rows of a result that the bounds let through. -/
def shownRows {α : Type} (p : Pagination) (rows : List α) : List α :=
  match p.limit with
  | none => rows
  | some limit => (rows.drop p.offset).take limit

/-- Windows of one length, each beginning where the one before ends, make up a prefix. -/
theorem flatMap_take_drop {α : Type} (rows : List α) (length : Nat) : ∀ count : Nat,
    (List.range count).flatMap (fun i => (rows.drop (i * length)).take length)
      = rows.take (count * length)
  | 0 => by
      rw [Nat.zero_mul]
      rfl
  | count + 1 => by
      rw [List.range_succ, List.flatMap_append, flatMap_take_drop rows length count,
        List.flatMap_singleton, Nat.succ_mul, List.take_add]

/-- Pages 1 to `count` of one size, put together, are the beginning of the result. -/
theorem flatMap_shownRows {config : PaginationConfig} {α : Type} (rows : List α)
    {size count : Nat} {pages : Nat → Pagination}
    (h : ∀ i < count, ∃ request, ofPairs config request = .ok (pages i)
      ∧ Asks request "page" (i + 1) ∧ Asks request "size" size ∧ InRange config (i + 1) size) :
    (List.range count).flatMap (fun i => (pages i).shownRows rows)
      = rows.take (count * capped config size) := by
  have hpages : ∀ i ∈ List.range count, (pages i).shownRows rows
      = (rows.drop (i * capped config size)).take (capped config size) := by
    intro i hi
    obtain ⟨request, hread, hpage, hsize, hrange⟩ := h i (List.mem_range.mp hi)
    obtain ⟨hlimit, hoffset⟩ := bounds_of_inRange hread hpage hsize hrange
    rw [shownRows, hlimit, hoffset, Nat.add_sub_cancel]
  rw [← flatMap_take_drop, List.flatMap_def, List.flatMap_def, List.map_congr_left hpages]

end Pagination

/-! ## Accepted configurations -/

theorem Config.most_of_validate {config : Config} (h : config.validate = .ok ()) {most : Nat}
    (hmost : config.pagination.maxLimit = some most) :
    1 ≤ most ∧ config.pagination.defaultLimit ≤ most := by
  rw [validate] at h
  simp only [hmost] at h
  split at h
  · cases h
  · omega

open Pagination

theorem capped_le {config : PaginationConfig} {most : Nat} (h : config.maxLimit = some most)
    (size : Nat) : capped config size ≤ most := by
  rw [capped, h]
  exact Nat.min_le_right size most

theorem capped_pos {config : Config} (h : config.validate = .ok ()) {size : Nat}
    (hsize : 1 ≤ size) : 1 ≤ capped config.pagination size := by
  rw [capped]
  cases hmost : config.pagination.maxLimit with
  | none => exact hsize
  | some most => exact Nat.le_min.mpr ⟨hsize, (Config.most_of_validate h hmost).1⟩

/-- The bounds of requests against an accepted configuration. A page that can be reached has as
many rows as it asks for, or as the maximum allows, at least one, and begins behind the exact
number of rows that the pages in front of it have; any other request has the configured
default and begins at the first row. So no limit is above the maximum, and no offset
exceeds 64 bits.

Hence pages of one size follow one another: the next one begins where the one before ends, and the
first `count` of them together show the first rows of a result, each once and in order. -/
theorem bounds_exact {config : Config} (hconfig : config.validate = .ok ()) :
    (∀ pairs p, ofPairs config.pagination pairs = .ok p →
        (∀ page size, Asks pairs "page" page → Asks pairs "size" size →
          InRange config.pagination page size →
            p.limit = some (capped config.pagination size)
              ∧ 1 ≤ capped config.pagination size
              ∧ p.offset = (page - 1) * capped config.pagination size)
        ∧ ((¬ ∃ page size, Asks pairs "page" page ∧ Asks pairs "size" size
            ∧ InRange config.pagination page size) →
          p.limit = some config.pagination.defaultLimit ∧ p.offset = 0)
        ∧ p.offset < Decimal.wordLimit
        ∧ ∃ limit, p.limit = some limit
          ∧ ∀ most, config.pagination.maxLimit = some most → limit ≤ most)
      ∧ (∀ pairs pairs' p p' page size, ofPairs config.pagination pairs = .ok p →
        ofPairs config.pagination pairs' = .ok p' →
        Asks pairs "page" page → Asks pairs' "page" (page + 1) →
        Asks pairs "size" size → Asks pairs' "size" size →
        InRange config.pagination page size → InRange config.pagination (page + 1) size →
          ∃ limit, p.limit = some limit ∧ p'.limit = some limit ∧ p'.offset = p.offset + limit)
      ∧ ∀ (rows : List Fields) (size count : Nat) (pages : Nat → Pagination),
        (∀ i < count, ∃ request, ofPairs config.pagination request = .ok (pages i)
          ∧ Asks request "page" (i + 1) ∧ Asks request "size" size
          ∧ InRange config.pagination (i + 1) size) →
        (List.range count).flatMap (fun i => (pages i).shownRows rows)
          = rows.take (count * capped config.pagination size) := by
  refine ⟨fun pairs p hp => ⟨?_, bounds_of_not_inRange hp, ?_⟩, ?_,
    fun rows size count pages h => ?_⟩
  · intro page size hpage hsize hrange
    obtain ⟨hlimit, hoffset⟩ := bounds_of_inRange hp hpage hsize hrange
    exact ⟨hlimit, capped_pos hconfig hrange.size_pos, hoffset⟩
  · by_cases hreach : ∃ page size, Asks pairs "page" page ∧ Asks pairs "size" size
        ∧ InRange config.pagination page size
    · obtain ⟨page, size, hpage, hsize, hrange⟩ := hreach
      obtain ⟨hlimit, hoffset⟩ := bounds_of_inRange hp hpage hsize hrange
      exact ⟨hoffset ▸ hrange.fits, _, hlimit, fun most hmost => capped_le hmost size⟩
    · obtain ⟨hlimit, hoffset⟩ := bounds_of_not_inRange hp hreach
      exact ⟨by rw [hoffset]; decide, _, hlimit, fun most hmost =>
        (Config.most_of_validate hconfig hmost).2⟩
  · intro pairs pairs' p p' page size hp hp' hpage hpage' hsize hsize' hrange hrange'
    obtain ⟨hlimit, hoffset⟩ := bounds_of_inRange hp hpage hsize hrange
    obtain ⟨hlimit', hoffset'⟩ := bounds_of_inRange hp' hpage' hsize' hrange'
    refine ⟨_, hlimit, hlimit', ?_⟩
    -- counting from one, the next page has one page more in front of it
    obtain ⟨before, rfl⟩ := Nat.exists_eq_add_of_le' hrange.page_pos
    rw [hoffset, hoffset', Nat.add_sub_cancel, Nat.add_sub_cancel, Nat.succ_mul]
  · exact flatMap_shownRows rows h

/-- Blanks and a plus around a number, an earlier page that does not count, and a size above
the maximum; and the page behind it. -/
theorem bounds_exact_of_capped_size :
    let config : Config := ⟨{}, ⟨50, some 100⟩⟩
    let pairs := [("page", "9"), ("size", " +500 "), ("page", "3")]
    let next := [("page", "4"), ("size", "500")]
    config.validate = .ok () ∧ ∃ p p', ofPairs config.pagination pairs = .ok p
      ∧ ofPairs config.pagination next = .ok p' ∧ p.limit = some 100 ∧ p.offset = 200
      ∧ ∃ limit, p.limit = some limit ∧ p'.limit = some limit ∧ p'.offset = p.offset + limit := by
  intro config pairs next
  have hconfig : config.validate = .ok () := rfl
  have hpage : Asks pairs "page" 3 :=
    ⟨[("page", "9"), ("size", " +500 ")], "3", [], rfl, by decide,
      ⟨['3'], .inl (by decide), by decide, List.all_eq_true.mp rfl, rfl⟩, by decide⟩
  have hsize : Asks pairs "size" 500 :=
    ⟨[("page", "9")], " +500 ", [("page", "3")], rfl, by decide,
      ⟨['5', '0', '0'], .inr (by decide), by decide, List.all_eq_true.mp rfl, rfl⟩, by decide⟩
  have hpage' : Asks next "page" 4 :=
    ⟨[], "4", [("size", "500")], rfl, by decide,
      ⟨['4'], .inl (by decide), by decide, List.all_eq_true.mp rfl, rfl⟩, by decide⟩
  have hsize' : Asks next "size" 500 :=
    ⟨[("page", "4")], "500", [], rfl, by decide,
      ⟨['5', '0', '0'], .inl (by decide), by decide, List.all_eq_true.mp rfl, rfl⟩, by decide⟩
  have hrange : InRange config.pagination 3 500 := ⟨by decide, by decide, by decide⟩
  have hrange' : InRange config.pagination 4 500 := ⟨by decide, by decide, by decide⟩
  obtain ⟨p, hp⟩ : ∃ p, ofPairs config.pagination pairs = .ok p := ⟨_, rfl⟩
  obtain ⟨p', hp'⟩ : ∃ p', ofPairs config.pagination next = .ok p' := ⟨_, rfl⟩
  obtain ⟨hexact, hnext, -⟩ := bounds_exact hconfig
  obtain ⟨hlimit, -, hoffset⟩ := (hexact pairs p hp).1 3 500 hpage hsize hrange
  exact ⟨hconfig, p, p', hp, hp', hlimit, hoffset,
    hnext pairs next p p' 3 500 hp hp' hpage hpage' hsize hsize' hrange hrange'⟩

end RecordMapper
