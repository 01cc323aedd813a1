import FilterSelect.Catalog
import Mathlib.Data.List.Forall2

/-!
# Rows of a catalog

A row names its column under either of two keys, and it says the column's type and whether it may be
null under two keys each. The first key of a pair that has a text counts. So a row keeps its column
in either form, but an empty text under the first key hides a name under the second.

* `RowForm.Writes`: the members of a row in the catalog's own form, or in the short one.
* `ofJson?_eq_some_iff`: the rows that have a column, and what they say of it.
* `ReadsRows`: which rows of a document have columns, and that their form does not matter.
* `readsRows`: so it is for every text of a catalog.
* `lost_beside_empty`: a row whose name is hidden.
-/

namespace FilterSelect

open Json (Members)

namespace CatalogColumn

/-! ## What rows say -/

/-- What stands under a key of a row; nothing in a row that is no object. -/
def memberAt? (row : Json) (key : String) : Option Json :=
  match row with
  | .object members => Members.get? members key
  | _ => none

/-- The text that stands in a place. -/
def textOf? : Option Json → Option String
  | some (.string s) => some s
  | _ => none

/-- The truth value that stands in a place. -/
def flagOf? : Option Json → Option Bool
  | some (.bool b) => some b
  | _ => none

/-- The text that a row has under a key. -/
def textAt? (row : Json) (key : String) : Option String := textOf? (memberAt? row key)

/-- The truth value that a row has under a key. -/
def flagAt? (row : Json) (key : String) : Option Bool := flagOf? (memberAt? row key)

/-- Whether a text that is not empty stands under one of the keys for a name. -/
def isNamed (row : Json) : Bool :=
  ["column_name", "name"].any fun key => (textAt? row key).any (· ≠ "")

/-- Whether an empty text stands under the first key for a name, before a name under the second. -/
def hidesName (row : Json) : Bool :=
  textAt? row "column_name" = some "" && (textAt? row "name").any (· ≠ "")

/-- The column is that of the row: for each of its parts the first key that has a text counts, and a
truth value counts where the first key for it has no text. -/
structure Describes (row : Json) (c : CatalogColumn) : Prop where
  name_ne : c.name ≠ ""
  name : (textAt? row "column_name").or (textAt? row "name") = some c.name
  type : c.type = ((textAt? row "data_type").or (textAt? row "type")).getD ""
  nullable : c.nullable = true ↔ textAt? row "is_nullable" = some "YES" ∨
    textAt? row "is_nullable" = none ∧ flagAt? row "nullable" = some true

end CatalogColumn

/-! ## The two forms of a row -/

/-- What a row says of its column, part by part. A name or a type that is no text is kept as it is.
-/
structure RowParts where
  name? : Option Json
  type? : Option Json
  nullable? : Option Bool

/-- The column of a row, if it has a name. -/
def RowParts.column? (parts : RowParts) : Option CatalogColumn :=
  ((CatalogColumn.textOf? parts.name?).filter (· ≠ "")).map fun name =>
    ⟨name, (CatalogColumn.textOf? parts.type?).getD "", parts.nullable?.getD false⟩

/-- How a row is written. -/
inductive RowForm
  /-- With the keys and the words of a database catalog. -/
  | catalog
  /-- With short keys and a truth value. -/
  | short
  deriving DecidableEq

namespace RowForm

/-- The keys of the parts: the name, the type, and whether the column may be null. -/
def keys : RowForm → String × String × String
  | catalog => ("column_name", "data_type", "is_nullable")
  | short => ("name", "type", "nullable")

/-- How a truth value is written. -/
def flag : RowForm → Bool → Json
  | catalog, mayBeNull => .string (if mayBeNull then "YES" else "NO")
  | short, mayBeNull => .bool mayBeNull

/-- The form that a row is not written in. -/
def other : RowForm → RowForm
  | catalog => short
  | short => catalog

/-- The members of a row write its parts in this form, and have nothing under the keys of the other
one. Under further keys they may have anything. -/
structure Writes (form : RowForm) (parts : RowParts) (members : Members) : Prop where
  name : members.get? form.keys.1 = parts.name?
  type : members.get? form.keys.2.1 = parts.type?
  nullable : members.get? form.keys.2.2 = parts.nullable?.map form.flag
  noName : members.get? form.other.keys.1 = none
  noType : members.get? form.other.keys.2.1 = none
  noNullable : members.get? form.other.keys.2.2 = none

end RowForm

namespace CatalogColumn

/-- How the rows of a text are read. -/
structure ReadsRows (text : String) (rows : List Json) : Prop where
  /-- There is a column for each row with a name that is not hidden, in the order of the rows. -/
  kept : ∃ columns, readAll text = .ok columns ∧
    List.Forall₂ Describes (rows.filter fun row => isNamed row && !hidesName row) columns
  /-- So there is one for each row with a name, and for no other, exactly when none is hidden. -/
  keepsNamed_iff : (∃ columns, readAll text = .ok columns ∧
    List.Forall₂ Describes (rows.filter isNamed) columns) ↔ ∀ row ∈ rows, hidesName row = false
  /-- Writing a row in the other form changes nothing. -/
  form_eq : ∀ (form : RowForm) (parts : RowParts) (before after : List Json)
    (members members' : Members) (text' : String), rows = before ++ .object members :: after →
      form.Writes parts members → form.other.Writes parts members' →
        Json.read? text' = some (.array (before ++ .object members' :: after)) →
          readAll text' = readAll text

/-! ## Columns of rows -/

theorem stringOf?_eq (members : Members) (first second : String) :
    stringOf? members first second =
      (textOf? (members.get? first)).or (textOf? (members.get? second)) := by
  unfold stringOf? textOf?
  split
  · simp_all
  · split <;> simp_all

theorem nullableOf_iff (members : Members) : nullableOf members = true ↔
    textOf? (members.get? "is_nullable") = some "YES" ∨
      textOf? (members.get? "is_nullable") = none ∧
        flagOf? (members.get? "nullable") = some true := by
  unfold nullableOf textOf? flagOf?
  split <;> simp_all

theorem ofJson?_object (members : Members) : ofJson? (.object members) =
    ((stringOf? members "column_name" "name").filter (· ≠ "")).map fun name =>
      ⟨name, (stringOf? members "data_type" "type").getD "", nullableOf members⟩ := by
  unfold ofJson?
  simp only []
  split
  · rename_i h
    rw [h]
    rfl
  · rename_i h
    rw [h]
    rfl
  · rename_i name hne h
    rw [h, Option.filter_some, if_pos (by simpa using hne)]
    rfl

/-- The column of a row is the one that the row describes. -/
theorem ofJson?_eq_some_iff {row : Json} {c : CatalogColumn} :
    ofJson? row = some c ↔ Describes row c := by
  cases row with
  | object members =>
    rw [ofJson?_object, stringOf?_eq, stringOf?_eq, Option.map_eq_some_iff]
    constructor
    · rintro ⟨name, hname, rfl⟩
      obtain ⟨hname, hne⟩ := Option.filter_eq_some_iff.mp hname
      exact ⟨by simpa using hne, hname, rfl, nullableOf_iff members⟩
    · rintro ⟨hne, hname, htype, hnullable⟩
      refine ⟨c.name, Option.filter_eq_some_iff.mpr ⟨hname, by simpa using hne⟩, ?_⟩
      have hmayBeNull : nullableOf members = c.nullable :=
        Bool.eq_iff_iff.mpr ((nullableOf_iff members).trans hnullable.symm)
      rw [hmayBeNull]
      exact congrArg (fun type => (⟨c.name, type, c.nullable⟩ : CatalogColumn)) htype.symm
  | _ =>
    refine ⟨fun h => ?_, fun h => ?_⟩
    · cases h
    · cases h.name

theorem isNamed_eq (row : Json) : isNamed row =
    ((textAt? row "column_name").any (· ≠ "") || (textAt? row "name").any (· ≠ "")) := by
  simp [isNamed]

theorem isNamed_of_hidesName {row : Json} (h : hidesName row = true) : isNamed row = true := by
  rw [isNamed_eq, (Bool.and_eq_true_iff.mp h).2, Bool.or_true]

/-- A row has a column if it has a name that is not hidden. -/
theorem isSome_ofJson? (row : Json) :
    (ofJson? row).isSome = (isNamed row && !hidesName row) := by
  have hor : (ofJson? row).isSome =
      ((textAt? row "column_name").or (textAt? row "name")).any (· ≠ "") := by
    cases row with
    | object members =>
      rw [ofJson?_object, Option.isSome_map, stringOf?_eq, Option.isSome_filter]
      rfl
    | _ => rfl
  rw [hor, isNamed_eq]
  unfold hidesName
  cases textAt? row "column_name" with
  | none => simp
  | some s => by_cases hs : s = "" <;> simp [hs]

/-! ## Columns of documents -/

theorem forall₂_filterMap (rows : List Json) :
    List.Forall₂ Describes (rows.filter fun row => isNamed row && !hidesName row)
      (rows.filterMap ofJson?) := by
  induction rows with
  | nil => exact .nil
  | cons row rows ih =>
    cases hrow : ofJson? row with
    | none =>
      rw [List.filterMap_cons_none hrow, List.filter_cons_of_neg (by simp [← isSome_ofJson?, hrow])]
      exact ih
    | some c =>
      rw [List.filterMap_cons_some hrow, List.filter_cons_of_pos (by simp [← isSome_ofJson?, hrow])]
      exact .cons (ofJson?_eq_some_iff.mp hrow) ih

/-- A hidden name is missing among the columns. -/
theorem filter_isNamed_eq_iff (rows : List Json) :
    (rows.filter isNamed).length = (rows.filter fun row => isNamed row && !hidesName row).length ↔
      ∀ row ∈ rows, hidesName row = false := by
  have hsub : (rows.filter fun row => isNamed row && !hidesName row) =
      (rows.filter isNamed).filter fun row => !hidesName row := by
    rw [List.filter_filter]
    congr 1
    funext row
    exact Bool.and_comm ..
  rw [hsub, eq_comm, List.length_filter_eq_length_iff]
  constructor
  · intro h row hrow
    cases hhidden : hidesName row with
    | false => rfl
    | true =>
      have hshown := h row (List.mem_filter.mpr ⟨hrow, isNamed_of_hidesName hhidden⟩)
      simp [hhidden] at hshown
  · intro h row hrow
    simp [h row (List.mem_of_mem_filter hrow)]

/-- Both forms of a row describe the same column. -/
theorem ofJson?_of_writes {form : RowForm} {parts : RowParts} {members : Members}
    (h : form.Writes parts members) : ofJson? (.object members) = parts.column? := by
  obtain ⟨hname, htype, hnullable, hnoName, hnoType, hnoNullable⟩ := h
  have hmayBeNull : nullableOf members = parts.nullable?.getD false := by
    unfold nullableOf
    cases form with
    | catalog =>
      rw [show members.get? "is_nullable" = _ from hnullable,
        show members.get? "nullable" = _ from hnoNullable]
      rcases parts.nullable? with _ | _ | _ <;> rfl
    | short =>
      rw [show members.get? "nullable" = _ from hnullable,
        show members.get? "is_nullable" = _ from hnoNullable]
      rcases parts.nullable? with _ | _ | _ <;> rfl
  rw [ofJson?_object, stringOf?_eq, stringOf?_eq, hmayBeNull]
  unfold RowParts.column?
  cases form with
  | catalog =>
    rw [show members.get? "column_name" = _ from hname, show members.get? "name" = _ from hnoName,
      show members.get? "data_type" = _ from htype, show members.get? "type" = _ from hnoType]
    simp only [textOf?, Option.or_none]
  | short =>
    rw [show members.get? "name" = _ from hname, show members.get? "column_name" = _ from hnoName,
      show members.get? "type" = _ from htype, show members.get? "data_type" = _ from hnoType]
    simp only [textOf?, Option.none_or]

theorem readAll_of_read? {text : String} {rows : List Json}
    (h : Json.read? text = some (.array rows)) : readAll text = .ok (rows.filterMap ofJson?) := by
  unfold readAll
  rw [h]
  rfl

/-- The rows of a catalog's text are read in either form, and each has its column unless the name is
hidden. -/
theorem readsRows {text : String} {rows : List Json} (h : Json.read? text = some (.array rows)) :
    ReadsRows text rows where
  kept := ⟨_, readAll_of_read? h, forall₂_filterMap rows⟩
  keepsNamed_iff := by
    rw [← filter_isNamed_eq_iff, (forall₂_filterMap rows).length_eq]
    constructor
    · rintro ⟨columns, hcolumns, hall⟩
      rw [readAll_of_read? h] at hcolumns
      cases hcolumns
      exact hall.length_eq
    · intro hlength
      refine ⟨_, readAll_of_read? h, ?_⟩
      rw [← (forall₂_filterMap rows).length_eq, filter_isNamed_eq_iff] at hlength
      have hfilter : rows.filter isNamed =
          rows.filter fun row => isNamed row && !hidesName row :=
        List.filter_congr fun row hrow => by simp [hlength row hrow]
      rw [hfilter]
      exact forall₂_filterMap rows
  form_eq form parts before after members members' text' hrows hwrites hother hread := by
    rw [readAll_of_read? h, readAll_of_read? hread, hrows]
    simp only [List.filterMap_append, List.filterMap_cons, ofJson?_of_writes hwrites,
      ofJson?_of_writes hother]

/-- The text of a catalog with a row in a form, a row whose name stands beside a number, and a row
that is no object. -/
def mixedText : RowForm → String
  | .catalog => "[\x7b\"column_name\":\"day\",\"data_type\":\"date\",\"is_nullable\":\"YES\"\x7d" ++
      ",\x7b\"column_name\":5,\"name\":\"bio\"\x7d,7]"
  | .short => "[\x7b\"name\":\"day\",\"type\":\"date\",\"nullable\":true\x7d" ++
      ",\x7b\"column_name\":5,\"name\":\"bio\"\x7d,7]"

/-- The members of the first of the rows. -/
def mixedMembers : RowForm → Members
  | .catalog => [("column_name", .string "day"), ("data_type", .string "date"),
      ("is_nullable", .string "YES")]
  | .short => [("name", .string "day"), ("nullable", .bool true), ("type", .string "date")]

/-- The rows behind the first. -/
def mixedRest : List Json :=
  [.object [("column_name", .number (.unsigned 5)), ("name", .string "bio")], .number (.unsigned 7)]

theorem readsRows_mixed :
    (∃ first second, readAll (mixedText .catalog) = .ok [first, second] ∧ second.name = "bio") ∧
      readAll (mixedText .short) = readAll (mixedText .catalog) := by
  have hcatalog : Json.read? (mixedText .catalog) =
      some (.array (.object (mixedMembers .catalog) :: mixedRest)) := by with_unfolding_all rfl
  have hshort : Json.read? (mixedText .short) =
      some (.array (.object (mixedMembers .short) :: mixedRest)) := by with_unfolding_all rfl
  have hrows := readsRows hcatalog
  refine ⟨?_, hrows.form_eq .catalog ⟨some (.string "day"), some (.string "date"), some true⟩
    [] mixedRest _ _ _ rfl ⟨rfl, rfl, rfl, rfl, rfl, rfl⟩ ⟨rfl, rfl, rfl, rfl, rfl, rfl⟩ hshort⟩
  have hshown : ∀ row ∈ .object (mixedMembers .catalog) :: mixedRest, hidesName row = false := by
    simp only [mixedRest, List.forall_mem_cons, List.not_mem_nil, false_imp_iff, implies_true,
      and_true]
    decide
  obtain ⟨columns, hcolumns, hall⟩ := hrows.keepsNamed_iff.mpr hshown
  obtain ⟨first, rest, -, hrest, rfl⟩ := List.forall₂_cons_left_iff.mp hall
  obtain ⟨second, _, hsecond, hnil, rfl⟩ := List.forall₂_cons_left_iff.mp hrest
  obtain rfl := List.forall₂_nil_left_iff.mp hnil
  exact ⟨first, second, hcolumns, (Option.some.inj hsecond.name).symm⟩

/-- A row with an empty text under the first key loses the name under the second. -/
theorem lost_beside_empty : ∃ rows,
    Json.read? "[\x7b\"column_name\":\"\",\"name\":\"x\"\x7d]" = some (.array rows) ∧
      readAll "[\x7b\"column_name\":\"\",\"name\":\"x\"\x7d]" = .ok [] ∧
      ¬ ∃ columns, readAll "[\x7b\"column_name\":\"\",\"name\":\"x\"\x7d]" = .ok columns ∧
        List.Forall₂ Describes (rows.filter isNamed) columns := by
  have hread : Json.read? "[\x7b\"column_name\":\"\",\"name\":\"x\"\x7d]" =
      some (.array [.object [("column_name", .string ""), ("name", .string "x")]]) := by
    with_unfolding_all rfl
  have hnone : readAll "[\x7b\"column_name\":\"\",\"name\":\"x\"\x7d]" = .ok [] := by
    rw [readAll_of_read? hread]
    rfl
  refine ⟨_, hread, hnone, ?_⟩
  rintro ⟨columns, hcolumns, hall⟩
  rw [hnone] at hcolumns
  cases hcolumns
  exact absurd hall.length_eq (by decide)

end CatalogColumn

end FilterSelect
