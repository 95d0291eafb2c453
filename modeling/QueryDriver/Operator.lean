/-! # Operators

The tag of a node of an expression. Most tags are a `Verb`, an operation that the
server knows by a code. The others exist on the client alone: a literal, a function,
and the settings, which contribute no operation but change how what is below them is
compiled.

A verb has three names: the `word` of the protocol, the `label` under which it is
called and shown, and the `code` it has on the wire.
-/

namespace QueryDriver

/-- The operations of the server, in the order of the protocol. -/
inductive Verb where
  | var | javascript | error | implicitVar | db | table | get | getAll | eq | ne | lt | le
  | gt | ge | not | add | sub | mul | div | mod | append | prepend | difference | setInsert
  | setIntersection | setUnion | setDifference | slice | skip | limit | indexesOf
  | contains | field | keys | hasFields | withFields | pluck | without | merge | between
  | reduce | map | filter | concatMap | orderBy | distinct | count | isEmpty | union | nth
  | groupedMapReduce | groupBy | innerJoin | outerJoin | eqJoin | zip | insertAt | deleteAt
  | changeAt | spliceAt | coerceTo | typeOf | update | delete | replace | insert | dbCreate
  | dbDrop | dbList | tableCreate | tableDrop | tableList | indexCreate | indexDrop
  | indexList | call | branch | anyOf | allOf | forEach | asc | desc | info | matches
  | sample | orDefault | json | nestedLiteral | iso8601 | toIso8601 | epochTime
  | toEpochTime | now | inTimezone | during | date | timeOfDay | timezone | year | month
  | day | dayOfWeek | dayOfYear | hours | minutes | seconds | time | monday | tuesday
  | wednesday | thursday | friday | saturday | sunday | january | february | march | april
  | may | june | july | august | september | october | november | december
deriving DecidableEq

namespace Verb

/-- The names of a verb. -/
structure Names where
  word : String
  label : String
  code : Int32

/-- Every verb with its word, its label and its code. -/
def names : Verb → Names
  | .var => ⟨"VAR", "var", 10⟩
  | .javascript => ⟨"JAVASCRIPT", "js", 11⟩
  | .error => ⟨"ERROR", "error", 12⟩
  | .implicitVar => ⟨"IMPLICIT_VAR", "row", 13⟩
  | .db => ⟨"DB", "db", 14⟩
  | .table => ⟨"TABLE", "table", 15⟩
  | .get => ⟨"GET", "get", 16⟩
  | .getAll => ⟨"GET_ALL", "get_all", 78⟩
  | .eq => ⟨"EQ", "eq", 17⟩
  | .ne => ⟨"NE", "ne", 18⟩
  | .lt => ⟨"LT", "lt", 19⟩
  | .le => ⟨"LE", "le", 20⟩
  | .gt => ⟨"GT", "gt", 21⟩
  | .ge => ⟨"GE", "ge", 22⟩
  | .not => ⟨"NOT", "not_", 23⟩
  | .add => ⟨"ADD", "add", 24⟩
  | .sub => ⟨"SUB", "sub", 25⟩
  | .mul => ⟨"MUL", "mul", 26⟩
  | .div => ⟨"DIV", "div", 27⟩
  | .mod => ⟨"MOD", "mod", 28⟩
  | .append => ⟨"APPEND", "append", 29⟩
  | .prepend => ⟨"PREPEND", "prepend", 80⟩
  | .difference => ⟨"DIFFERENCE", "difference", 95⟩
  | .setInsert => ⟨"SET_INSERT", "set_insert", 88⟩
  | .setIntersection => ⟨"SET_INTERSECTION", "set_intersection", 89⟩
  | .setUnion => ⟨"SET_UNION", "set_union", 90⟩
  | .setDifference => ⟨"SET_DIFFERENCE", "set_difference", 91⟩
  | .slice => ⟨"SLICE", "slice", 30⟩
  | .skip => ⟨"SKIP", "skip", 70⟩
  | .limit => ⟨"LIMIT", "limit", 71⟩
  | .indexesOf => ⟨"INDEXES_OF", "indexes_of", 87⟩
  | .contains => ⟨"CONTAINS", "contains", 93⟩
  | .field => ⟨"GETATTR", "attr", 31⟩
  | .keys => ⟨"KEYS", "keys", 94⟩
  | .hasFields => ⟨"HAS_FIELDS", "has_fields", 32⟩
  | .withFields => ⟨"WITH_FIELDS", "with_fields", 96⟩
  | .pluck => ⟨"PLUCK", "pluck", 33⟩
  | .without => ⟨"WITHOUT", "without", 34⟩
  | .merge => ⟨"MERGE", "merge", 35⟩
  | .between => ⟨"BETWEEN", "between", 36⟩
  | .reduce => ⟨"REDUCE", "reduce", 37⟩
  | .map => ⟨"MAP", "map", 38⟩
  | .filter => ⟨"FILTER", "filter", 39⟩
  | .concatMap => ⟨"CONCATMAP", "concat_map", 40⟩
  | .orderBy => ⟨"ORDERBY", "order_by", 41⟩
  | .distinct => ⟨"DISTINCT", "distinct", 42⟩
  | .count => ⟨"COUNT", "count", 43⟩
  | .isEmpty => ⟨"IS_EMPTY", "is_empty", 86⟩
  | .union => ⟨"UNION", "union", 44⟩
  | .nth => ⟨"NTH", "nth", 45⟩
  | .groupedMapReduce => ⟨"GROUPED_MAP_REDUCE", "grouped_map_reduce", 46⟩
  | .groupBy => ⟨"GROUPBY", "group_by", 47⟩
  | .innerJoin => ⟨"INNER_JOIN", "inner_join", 48⟩
  | .outerJoin => ⟨"OUTER_JOIN", "outer_join", 49⟩
  | .eqJoin => ⟨"EQ_JOIN", "eq_join", 50⟩
  | .zip => ⟨"ZIP", "zip", 72⟩
  | .insertAt => ⟨"INSERT_AT", "insert_at", 82⟩
  | .deleteAt => ⟨"DELETE_AT", "delete_at", 83⟩
  | .changeAt => ⟨"CHANGE_AT", "change_at", 84⟩
  | .spliceAt => ⟨"SPLICE_AT", "splice_at", 85⟩
  | .coerceTo => ⟨"COERCE_TO", "coerce_to", 51⟩
  | .typeOf => ⟨"TYPEOF", "type_of", 52⟩
  | .update => ⟨"UPDATE", "update", 53⟩
  | .delete => ⟨"DELETE", "delete", 54⟩
  | .replace => ⟨"REPLACE", "replace", 55⟩
  | .insert => ⟨"INSERT", "insert", 56⟩
  | .dbCreate => ⟨"DB_CREATE", "db_create", 57⟩
  | .dbDrop => ⟨"DB_DROP", "db_drop", 58⟩
  | .dbList => ⟨"DB_LIST", "db_list", 59⟩
  | .tableCreate => ⟨"TABLE_CREATE", "table_create", 60⟩
  | .tableDrop => ⟨"TABLE_DROP", "table_drop", 61⟩
  | .tableList => ⟨"TABLE_LIST", "table_list", 62⟩
  | .indexCreate => ⟨"INDEX_CREATE", "index_create", 75⟩
  | .indexDrop => ⟨"INDEX_DROP", "index_drop", 76⟩
  | .indexList => ⟨"INDEX_LIST", "index_list", 77⟩
  | .call => ⟨"FUNCALL", "do", 64⟩
  | .branch => ⟨"BRANCH", "branch", 65⟩
  | .anyOf => ⟨"ANY", "or_", 66⟩
  | .allOf => ⟨"ALL", "and_", 67⟩
  | .forEach => ⟨"FOREACH", "for_each", 68⟩
  | .asc => ⟨"ASC", "asc", 73⟩
  | .desc => ⟨"DESC", "desc", 74⟩
  | .info => ⟨"INFO", "info", 79⟩
  | .matches => ⟨"MATCH", "match", 97⟩
  | .sample => ⟨"SAMPLE", "sample", 81⟩
  | .orDefault => ⟨"DEFAULT", "default", 92⟩
  | .json => ⟨"JSON", "json", 98⟩
  | .nestedLiteral => ⟨"NESTED_LITERAL", "literal", 137⟩
  | .iso8601 => ⟨"ISO8601", "iso8601", 99⟩
  | .toIso8601 => ⟨"TO_ISO8601", "to_iso8601", 100⟩
  | .epochTime => ⟨"EPOCH_TIME", "epoch_time", 101⟩
  | .toEpochTime => ⟨"TO_EPOCH_TIME", "to_epoch_time", 102⟩
  | .now => ⟨"NOW", "now", 103⟩
  | .inTimezone => ⟨"IN_TIMEZONE", "in_timezone", 104⟩
  | .during => ⟨"DURING", "during", 105⟩
  | .date => ⟨"DATE", "date", 106⟩
  | .timeOfDay => ⟨"TIME_OF_DAY", "time_of_day", 126⟩
  | .timezone => ⟨"TIMEZONE", "timezone", 127⟩
  | .year => ⟨"YEAR", "year", 128⟩
  | .month => ⟨"MONTH", "month", 129⟩
  | .day => ⟨"DAY", "day", 130⟩
  | .dayOfWeek => ⟨"DAY_OF_WEEK", "day_of_week", 131⟩
  | .dayOfYear => ⟨"DAY_OF_YEAR", "day_of_year", 132⟩
  | .hours => ⟨"HOURS", "hours", 133⟩
  | .minutes => ⟨"MINUTES", "minutes", 134⟩
  | .seconds => ⟨"SECONDS", "seconds", 135⟩
  | .time => ⟨"TIME", "time", 136⟩
  | .monday => ⟨"MONDAY", "monday", 107⟩
  | .tuesday => ⟨"TUESDAY", "tuesday", 108⟩
  | .wednesday => ⟨"WEDNESDAY", "wednesday", 109⟩
  | .thursday => ⟨"THURSDAY", "thursday", 110⟩
  | .friday => ⟨"FRIDAY", "friday", 111⟩
  | .saturday => ⟨"SATURDAY", "saturday", 112⟩
  | .sunday => ⟨"SUNDAY", "sunday", 113⟩
  | .january => ⟨"JANUARY", "january", 114⟩
  | .february => ⟨"FEBRUARY", "february", 115⟩
  | .march => ⟨"MARCH", "march", 116⟩
  | .april => ⟨"APRIL", "april", 117⟩
  | .may => ⟨"MAY", "may", 118⟩
  | .june => ⟨"JUNE", "june", 119⟩
  | .july => ⟨"JULY", "july", 120⟩
  | .august => ⟨"AUGUST", "august", 121⟩
  | .september => ⟨"SEPTEMBER", "september", 122⟩
  | .october => ⟨"OCTOBER", "october", 123⟩
  | .november => ⟨"NOVEMBER", "november", 124⟩
  | .december => ⟨"DECEMBER", "december", 125⟩

def word (v : Verb) : String := v.names.word

def label (v : Verb) : String := v.names.label

def code (v : Verb) : Int32 := v.names.code

def all : List Verb :=
  [.var, .javascript, .error, .implicitVar, .db, .table, .get, .getAll, .eq, .ne, .lt, .le,
    .gt, .ge, .not, .add, .sub, .mul, .div, .mod, .append, .prepend, .difference,
    .setInsert, .setIntersection, .setUnion, .setDifference, .slice, .skip, .limit,
    .indexesOf, .contains, .field, .keys, .hasFields, .withFields, .pluck, .without,
    .merge, .between, .reduce, .map, .filter, .concatMap, .orderBy, .distinct, .count,
    .isEmpty, .union, .nth, .groupedMapReduce, .groupBy, .innerJoin, .outerJoin, .eqJoin,
    .zip, .insertAt, .deleteAt, .changeAt, .spliceAt, .coerceTo, .typeOf, .update, .delete,
    .replace, .insert, .dbCreate, .dbDrop, .dbList, .tableCreate, .tableDrop, .tableList,
    .indexCreate, .indexDrop, .indexList, .call, .branch, .anyOf, .allOf, .forEach, .asc,
    .desc, .info, .matches, .sample, .orDefault, .json, .nestedLiteral, .iso8601,
    .toIso8601, .epochTime, .toEpochTime, .now, .inTimezone, .during, .date, .timeOfDay,
    .timezone, .year, .month, .day, .dayOfWeek, .dayOfYear, .hours, .minutes, .seconds,
    .time, .monday, .tuesday, .wednesday, .thursday, .friday, .saturday, .sunday, .january,
    .february, .march, .april, .may, .june, .july, .august, .september, .october,
    .november, .december]

/-- The list of the verbs leaves none out. -/
theorem mem_all (v : Verb) : v ∈ all := by
  cases v <;> decide

/-- The name under which the last argument of a verb is sent as an option, for the
verbs that have such an argument. -/
def trailing? : Verb → Option String
  | .reduce | .groupedMapReduce => some "base"
  | .eqJoin | .getAll | .between => some "index"
  | .javascript => some "timeout"
  | _ => none

/-- The verbs that have such an argument. -/
def withTrailing : List Verb :=
  [.reduce, .groupedMapReduce, .eqJoin, .getAll, .between, .javascript]

theorem mem_withTrailing (v : Verb) : v ∈ withTrailing ↔ v.trailing?.isSome = true := by
  cases v <;> decide

/-- How many arguments follow the database, for the verbs whose database may be left
out. -/
def afterDatabase? : Verb → Option Nat
  | .table | .tableCreate | .tableDrop => some 1
  | .tableList => some 0
  | _ => none

/-- The verbs whose first argument has to be a table. -/
def needsTable : Verb → Bool
  | .get | .getAll | .between | .insert | .indexCreate | .indexDrop | .indexList => true
  | _ => false

/-- The verbs that are always shown as functions and never as methods. -/
def standsAlone : Verb → Bool
  | .db | .javascript | .json | .error | .nestedLiteral | .now | .time | .epochTime
  | .iso8601 | .dbCreate | .dbDrop | .dbList | .branch | .asc | .desc | .monday
  | .tuesday | .wednesday | .thursday | .friday | .saturday | .sunday | .january
  | .february | .march | .april | .may | .june | .july | .august | .september
  | .october | .november | .december => true
  | _ => false

end Verb

/-- The options that are set on a part of an expression. -/
inductive Setting where
  | useOutdated | durability | atomic | upsert | returnValues | leftBound | rightBound
  | timeFormat
deriving DecidableEq

namespace Setting

def all : List Setting :=
  [.useOutdated, .durability, .atomic, .upsert, .returnValues, .leftBound, .rightBound,
    .timeFormat]

def word : Setting → String
  | .useOutdated => "USE_OUTDATED"
  | .durability => "DURABILITY"
  | .atomic => "ATOMIC"
  | .upsert => "UPSERT"
  | .returnValues => "RETURN_VALUES"
  | .leftBound => "LEFT_BOUND"
  | .rightBound => "RIGHT_BOUND"
  | .timeFormat => "TIME_FORMAT"

def label : Setting → String
  | .useOutdated => "use_outdated"
  | .durability => "durability"
  | .atomic => "atomic"
  | .upsert => "upsert"
  | .returnValues => "return_values"
  | .leftBound => "left_bound"
  | .rightBound => "right_bound"
  | .timeFormat => "time_format"

end Setting

/-- The tag of a node. -/
inductive Operator where
  | literal
  | func
  | setting (s : Setting)
  | verb (v : Verb)
deriving DecidableEq

namespace Operator

def word : Operator → String
  | .literal => "LITERAL"
  | .func => "FUNC"
  | .setting s => s.word
  | .verb v => v.word

def label : Operator → String
  | .literal => "expr"
  | .func => "func"
  | .setting s => s.label
  | .verb v => v.label

/-- All operators, those of the client first. -/
def all : List Operator :=
  [.literal, .func] ++ Setting.all.map .setting ++ Verb.all.map .verb

/-- The operators that have no operation of the server. -/
def clientOnly : List Operator := [.literal, .func] ++ Setting.all.map .setting

def ofWord? (w : String) : Option Operator := all.find? fun o => o.word == w

/-- The operator is shown as a function and never as a method. -/
def standsAlone : Operator → Bool
  | .verb v => v.standsAlone
  | _ => false

end Operator

/-- The operations that terms are tagged with: those of the verbs, and the forms in
which values and functions are sent. -/
inductive TermType where
  | datum | makeArray | makeObject | func
  | verb (v : Verb)
deriving DecidableEq

namespace TermType

def code : TermType → Int32
  | .datum => 1
  | .makeArray => 2
  | .makeObject => 3
  | .func => 69
  | .verb v => v.code

/-- The word of the protocol. Only the verb of nested literals has another one here
than as an operator. -/
def word : TermType → String
  | .datum => "DATUM"
  | .makeArray => "MAKE_ARRAY"
  | .makeObject => "MAKE_OBJ"
  | .func => "FUNC"
  | .verb .nestedLiteral => "LITERAL"
  | .verb v => v.word

/-- All types in the order of the protocol: functions stand behind `forEach`, and the
nested literal is the last. -/
def all : List TermType :=
  let verbs := Verb.all.filter (· ≠ .nestedLiteral)
  [.datum, .makeArray, .makeObject]
    ++ (verbs.takeWhile (· ≠ .asc)).map .verb ++ [.func]
    ++ (verbs.dropWhile (· ≠ .asc)).map .verb ++ [.verb .nestedLiteral]

/-- The forms of a value that can stand in place of a function unless they mention
the current row. -/
def isLeafCode (n : Int32) : Bool :=
  n == code .datum || n == code .makeArray || n == code .makeObject
    || n == code (.verb .javascript)

end TermType

end QueryDriver
