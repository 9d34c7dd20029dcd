import PatternSampler.CharClass.Basic
import PatternSampler.Json.Record
/-!
# Classes as JSON

Classes travel as records of plain data.  A class that is read is taken as it is given: its ranges
are neither sorted nor joined.
-/
set_option autoImplicit false

namespace PatternSampler

/-- A range as JSON. -/
def CharRange.toJson (r : CharRange) : Json :=
  .obj [("start", .text (String.singleton r.first)), ("end", .text (String.singleton r.last))]

/-- A range from JSON; both ends are required. -/
def CharRange.ofJson? (v : Json) : Option CharRange :=
  match v.fields? ["start", "end"] with
  | some [first, last] =>
    match Json.required Json.toChar? first, Json.required Json.toChar? last with
    | some first, some last => some ⟨first, last⟩
    | _, _ => none
  | _ => none

/-- A category as JSON: its name. -/
def Category.toJson (k : Category) : Json := .text k.name

/-- A category from JSON: its name, alone or as the one key of an object over null. -/
def Category.ofJson? : Json → Option Category
  | .text s => ofName? s
  | .obj [(s, .null)] => ofName? s
  | _ => none

namespace CharClass

/-- A class as JSON. -/
def toJson (cls : CharClass) : Json :=
  .obj [
    ("negated", .bool cls.negated),
    ("ranges", .arr (cls.ranges.map CharRange.toJson)),
    ("categories", .arr (cls.categories.map Category.toJson))]

/-- A class from JSON; a missing field is false or empty. -/
def ofJson? (v : Json) : Option CharClass :=
  match v.fields? ["negated", "ranges", "categories"] with
  | some [negated, ranges, categories] =>
    match Json.optional Json.toBool? false negated,
      Json.optional (Json.toList? CharRange.ofJson?) [] ranges,
      Json.optional (Json.toList? Category.ofJson?) [] categories with
    | some negated, some ranges, some categories => some ⟨negated, ranges, categories⟩
    | _, _, _ => none
  | _ => none

end CharClass

end PatternSampler
