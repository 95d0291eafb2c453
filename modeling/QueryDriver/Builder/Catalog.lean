import QueryDriver.Builder.Row

/-! # The catalog of builders

All builders that make one node, a row each: the methods of an expression by family,
and the functions that start one.
-/

namespace QueryDriver.Catalog

open Row Parameter

/-- Options that hold below the receiver. -/
def settings : List Row :=
  [setter .useOutdated [switch "flag"],
    setter .durability [word "value" "durability" ["soft", "hard"]],
    setter .atomic [switch "flag"],
    setter .upsert [switch "flag"],
    { setter .returnValues [] with preset := [.bool true] },
    setter .leftBound [word "value" "left_bound" ["open", "closed"]],
    setter .rightBound [word "value" "right_bound" ["open", "closed"]],
    setter .timeFormat [word "value" "time_format" ["native", "raw"]]]

/-- Arithmetic, logic and comparison. -/
def arithmetic : List Row :=
  [variadic "add" .add, variadic "sub" .sub, variadic "mul" .mul, variadic "div" .div,
    method "mod" .mod [arg "other"],
    variadic "and_" .allOf, variadic "or_" .anyOf, method "not_" .not [],
    variadic "eq" .eq, variadic "ne" .ne, variadic "lt" .lt, variadic "le" .le,
    variadic "gt" .gt, variadic "ge" .ge]

/-- The operators of the host language that stand for methods. -/
def operators : List Row :=
  [renamed "__add__" (variadic "add" .add), renamed "__sub__" (variadic "sub" .sub),
    renamed "__mul__" (variadic "mul" .mul), renamed "__truediv__" (variadic "div" .div),
    renamed "__mod__" (method "mod" .mod [arg "other"]),
    renamed "__and__" (variadic "and_" .allOf), renamed "__or__" (variadic "or_" .anyOf),
    renamed "__invert__" (method "not_" .not []),
    exchanged "__radd__" .add, exchanged "__rsub__" .sub, exchanged "__rmul__" .mul,
    exchanged "__rtruediv__" .div]

/-- Documents and their fields. -/
def documents : List Row :=
  [method "attr" .field [named "name" "attribute name"],
    variadic "pluck" .pluck, variadic "without" .without, variadic "merge" .merge,
    method "keys" .keys [],
    variadic "has_fields" .hasFields, variadic "with_fields" .withFields,
    variadic "contains" .contains]

/-- Arrays and sets. -/
def arrays : List Row :=
  [method "append" .append [arg "value"], method "prepend" .prepend [arg "value"],
    method "difference" .difference [arg "values"],
    method "set_insert" .setInsert [arg "value"], method "set_union" .setUnion [arg "values"],
    method "set_intersection" .setIntersection [arg "values"],
    method "set_difference" .setDifference [arg "values"],
    method "insert_at" .insertAt [arg "index", arg "value"],
    method "splice_at" .spliceAt [arg "index", arg "values"],
    method "delete_at" .deleteAt [arg "index", spare "end"],
    method "change_at" .changeAt [arg "index", arg "value"],
    method "indexes_of" .indexesOf [body "predicate" 1],
    method "is_empty" .isEmpty [], method "sample" .sample [arg "count"]]

/-- Sequences. -/
def sequences : List Row :=
  [method "filter" .filter [body "predicate" 1], method "map" .map [body "mapping" 1],
    method "concat_map" .concatMap [body "mapping" 1],
    { method "order_by" .orderBy [] with rest := .some .ordering "at least one ordering" },
    method "skip" .skip [arg "count"], method "limit" .limit [arg "count"],
    method "slice" .slice [arg "start", ⟨"end", .plain, some (.int (-1))⟩],
    method "nth" .nth [arg "index"],
    variadic "union" .union, method "distinct" .distinct [], method "count" .count [],
    method "reduce" .reduce [body "reduction" 2, spare "base"],
    method "grouped_map_reduce" .groupedMapReduce
      [body "grouping" 1, body "mapping" 1, body "reduction" 2, spare "base"],
    method "group_by" .groupBy [⟨"attributes", .attributes, none⟩, arg "reduction"],
    method "for_each" .forEach [body "action" 1], method "zip" .zip []]

/-- Joins. -/
def joins : List Row :=
  [method "inner_join" .innerJoin [arg "other", body "predicate" 2],
    method "outer_join" .outerJoin [arg "other", body "predicate" 2],
    method "eq_join" .eqJoin
      [named "left_attribute" "eq_join attribute", arg "other", spare "index"]]

/-- Databases, tables, indexes and rows. -/
def tables : List Row :=
  [method "table" .table [named "name" "table name"],
    method "table_create" .tableCreate [⟨"spec", .tableSpec, none⟩],
    method "table_drop" .tableDrop [named "name" "table name"],
    method "table_list" .tableList [],
    method "index_create" .indexCreate
      [named "name" "index name", ⟨"function", .optionalFunction 1, some .absent⟩],
    method "index_drop" .indexDrop [named "name" "index name"],
    method "index_list" .indexList [],
    method "get" .get [arg "key"],
    { method "get_all" .getAll [] with
      rest := .some .plain "at least one key", keywordOnly := [spare "index"] },
    method "between" .between [arg "lower", arg "upper", spare "index"],
    method "insert" .insert [arg "documents"],
    method "update" .update [body "mapping" 1], method "replace" .replace [body "mapping" 1],
    method "delete" .delete [], method "info" .info []]

/-- Control and types. A function that is called stands in front of its argument. -/
def control : List Row :=
  [{ method "do" .call [body "function" (-1)] with place := .last },
    method "default" .orDefault [arg "value"],
    method "coerce_to" .coerceTo [named "type_name" "type name"],
    method "type_of" .typeOf [], method "match" .matches [arg "pattern"]]

/-- Times. -/
def times : List Row :=
  [method "in_timezone" .inTimezone [arg "tz"], method "timezone" .timezone [],
    method "during" .during [arg "start", arg "end"],
    method "date" .date [], method "time_of_day" .timeOfDay [],
    method "year" .year [], method "month" .month [], method "day" .day [],
    method "day_of_week" .dayOfWeek [], method "day_of_year" .dayOfYear [],
    method "hours" .hours [], method "minutes" .minutes [], method "seconds" .seconds [],
    method "to_iso8601" .toIso8601 [], method "to_epoch_time" .toEpochTime []]

/-- All methods of an expression that make one node. -/
def methods : List Row :=
  settings ++ arithmetic ++ operators ++ documents ++ arrays ++ sequences ++ joins ++ tables
    ++ control ++ times

/-- The days of the week and the months. -/
def calendar : List Row :=
  [.monday, .tuesday, .wednesday, .thursday, .friday, .saturday, .sunday, .january, .february,
    .march, .april, .may, .june, .july, .august, .september, .october, .november,
    .december].map fun v => function v.label v []

/-- All functions that make one node. -/
def functions : List Row :=
  [function "js" .javascript [named "body" "javascript body", spare "timeout"],
    function "json" .json [arg "text"], function "literal" .nestedLiteral [spare "value"],
    function "error" .error [arg "message"],
    function "db" .db [named "name" "database name"],
    function "table" .table [named "name" "table name"],
    function "db_create" .dbCreate [named "name" "database name"],
    function "db_drop" .dbDrop [named "name" "database name"],
    function "db_list" .dbList [],
    function "table_create" .tableCreate [⟨"spec", .tableSpec, none⟩],
    function "table_drop" .tableDrop [named "name" "table name"],
    function "table_list" .tableList [],
    function "branch" .branch [arg "test", arg "true_value", arg "false_value"],
    { function "and_" .allOf [] with rest := .some .plain "at least one expression" },
    { function "or_" .anyOf [] with rest := .some .plain "at least one expression" },
    function "not_" .not [arg "value"],
    function "asc" .asc [body "attribute" 1], function "desc" .desc [body "attribute" 1],
    function "now" .now [],
    { function "time" .time [arg "year", arg "month", arg "day"] with rest := .clock },
    function "epoch_time" .epochTime [arg "seconds"], function "iso8601" .iso8601 [arg "text"]]
    ++ calendar

def method? (name : String) : Option Row := methods.find? fun r => r.name == name

def function? (name : String) : Option Row := functions.find? fun r => r.name == name

end QueryDriver.Catalog
