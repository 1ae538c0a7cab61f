import SqlSelect.Document.Basic
/-!
Documents as JSON, with every member present.
-/

namespace SqlSelect

namespace Json

def ofOption {α : Type} (write : α → Json) : Option α → Json
  | none => null
  | some a => write a

def strings (texts : List String) : Json :=
  array (texts.map string)

end Json

def WrittenAlias.toJson (a : WrittenAlias) : Json :=
  .object [("entity", .string a.entity), ("alias", .string a.name)]

def capturedToJson (name : String) (value : Json) : Json :=
  .object [("var", .string name), ("value", value)]

def WrittenSelect.toJson : WrittenSelect → Json
  | column path => .string path
  | captured name value => capturedToJson name value
  | null => .null

def WrittenJoin.toJson : WrittenJoin → Json
  | key kind source target foreignKey =>
    .object [("kind", .string kind.tag), ("from", .string source), ("to", .string target),
      ("key", .string foreignKey)]
  | text kind conditions =>
    .object [("kind", .string kind.tag), ("on", .string conditions)]

def WrittenOperand.toJson : WrittenOperand → Json
  | column path => .object [("col", .string path)]
  | captured name value => capturedToJson name value
  | dateParts year month day =>
    .object [("ymd", .array [.int year, .int month, .int day])]
  | literal value => value

def WrittenList.toJson (l : WrittenList) : Json :=
  .object [("column", .string l.column), ("values", Json.ofOption .array l.values?),
    ("var", Json.ofOption .string l.variableName?), ("value", l.value)]

def WrittenPattern.toJson (p : WrittenPattern) : Json :=
  .object [("column", .string p.column), ("pattern", Json.ofOption .string p.pattern?),
    ("var", Json.ofOption .string p.variableName?), ("value", p.value)]

namespace WrittenFilter

mutual

def toJson : WrittenFilter → Json
  | group op items => .object [(op.sql, .array (allToJson items))]
  | compare op left right => .object [(op.tag, .array [left.toJson, right.toJson])]
  | inList negated test => .object [(if negated then "not_in" else "in", test.toJson)]
  | pattern shape test => .object [(shape.tag, test.toJson)]
  | isNull negated column =>
    .object [(if negated then "is_not_null" else "is_null", .string column)]

def allToJson : List WrittenFilter → List Json
  | [] => []
  | f :: fs => f.toJson :: allToJson fs

end

end WrittenFilter

def Document.toJson (d : Document) : Json :=
  .object [
    ("aliases", .array (d.aliases.map (·.toJson))),
    ("distinct", .bool d.distinct),
    ("select", .array (d.select.map (·.toJson))),
    ("column_aliases", Json.strings d.columnAliases),
    ("from", .string d.source),
    ("joins", .array (d.joins.map (·.toJson))),
    ("filter", Json.ofOption (·.toJson) d.filter),
    ("order_by", Json.strings d.orderBy)]

end SqlSelect
