import Tabula.Expr.Keyword

/-!
The functions that expression text may name. A call of a known function has to have a number of
arguments that the function takes; other functions take any. Some names are other names of a
function, which is reported under its main name.
-/

namespace Tabula

/-- How many arguments functions take: at least, and at most if there is a most. -/
structure Arity where
  least : Nat
  most : Option Nat
  deriving DecidableEq, Repr

def Arity.admits (a : Arity) (count : Nat) : Bool :=
  a.least ≤ count && a.most.all (count ≤ ·)

/-- Names by the number of arguments that they take. -/
def functionArities : List (Arity × List String) :=
  [(⟨0, some 0⟩,
      ["CURRENT_ACCOUNT", "CURRENT_DATABASE", "CURRENT_REGION", "CURRENT_ROLE",
       "CURRENT_TIMEZONE", "CURRENT_VERSION", "CURRENT_WAREHOUSE", "PI", "UTC_DATE"]),
    (⟨0, some 1⟩,
      ["CURRENT_CATALOG", "CURRENT_DATE", "CURRENT_SCHEMA", "CURRENT_TIME", "CURRENT_USER",
       "LOCALTIME", "LOCALTIMESTAMP", "NTILE", "RANDN", "ROW_NUMBER", "SESSION_USER",
       "UTC_TIME", "UTC_TIMESTAMP"]),
    (⟨0, some 2⟩, ["CURRENT_TIMESTAMP", "DATETIME", "LOG10", "LOG2", "MODE", "TIME"]),
    (⟨0, some 3⟩, ["RAND", "UUID"]),
    (⟨0, some 4⟩, ["TIMESTAMP"]),
    (⟨0, none⟩, ["INITCAP"]),
    (⟨1, some 1⟩,
      ["ABS", "ACOS", "ACOSH", "ARRAY_COMPACT", "ARRAY_CONCAT_AGG", "ARRAY_FIRST", "ARRAY_LAST",
       "ARRAY_MAX", "ARRAY_MIN", "ARRAY_REVERSE", "ARRAY_UNION_AGG", "ARRAY_UNIQUE_AGG",
       "ASCII", "ASIN", "ASINH", "ATANH", "AVG", "BITWISE_AND_AGG", "BITWISE_COUNT",
       "BITWISE_OR_AGG", "BITWISE_XOR_AGG", "BIT_LENGTH", "BYTE_LENGTH", "CBRT", "COS", "COSH",
       "COT", "COTH", "COUNT_IF", "CSC", "CSCH", "DATE_STR_TO_DATE", "DATE_TO_DI", "DAY",
       "DAYOFWEEK_ISO", "DAY_OF_MONTH", "DAY_OF_WEEK", "DAY_OF_YEAR", "DEGREES", "EXP",
       "FACTORIAL", "FIRST_VALUE", "FLATTEN", "FROM_BASE64", "HEX", "HOUR", "IS_ASCII",
       "IS_INF", "IS_NAN", "JUSTIFY_DAYS", "JUSTIFY_HOURS", "JUSTIFY_INTERVAL", "KURTOSIS",
       "LAST_VALUE", "LN", "LOGICAL_AND", "LOGICAL_OR", "LOWER", "MAP_FROM_ENTRIES", "MAP_KEYS",
       "MAP_SIZE", "MD5", "MEDIAN", "MINUTE", "MONTH", "MONTHNAME", "QUARTER", "RADIANS",
       "REVERSE", "SAFE_NEGATE", "SEC", "SECH", "SECOND", "SHA", "SIGN", "SIN", "SINH",
       "SKEWNESS", "SOUNDEX", "SPACE", "SQRT", "STDDEV", "STDDEV_POP", "STDDEV_SAMP", "SUM",
       "TAN", "TANH", "TIME_TO_UNIX", "TO_ARRAY", "TO_BASE64", "TO_DAYS", "TO_MAP", "TRY",
       "TYPEOF", "UNICODE", "UNIX_DATE", "UNIX_MICROS", "UNIX_MILLIS", "UNIX_SECONDS", "UPPER",
       "VARIANCE", "VARIANCE_POP", "WEEK_OF_YEAR", "YEAR", "YEAR_OF_WEEK", "YEAR_OF_WEEK_ISO"]),
    (⟨1, some 2⟩,
      ["APPROX_DISTINCT", "ARRAY_AGG", "ARRAY_DISTINCT", "ARRAY_SIZE", "ARRAY_SUM", "ATAN",
       "COLUMNS", "DAYNAME", "ENCODE", "EXISTS", "LAST_DAY", "LOG", "PERCENTILE_CONT",
       "PERCENTILE_DISC", "SHA2", "STRING", "TO_BOOLEAN", "UNHEX", "WEEK"]),
    (⟨1, some 3⟩,
      ["APPROX_TOP_K", "CEILING", "DECODE", "LAG", "LEAD", "LENGTH", "PARSE_JSON", "SORT_ARRAY",
       "SPLIT_BY_STRING", "SPLIT_PART", "STRTOK_TO_ARRAY", "STR_TO_DATE", "SUBSTRING",
       "TRUNC"]),
    (⟨1, some 4⟩,
      ["DATE_FROM_PARTS", "GENERATE_SERIES", "LTRIM", "ROUND", "RTRIM", "STR_TO_MAP",
       "TO_CHAR"]),
    (⟨1, some 6⟩, ["LEVENSHTEIN"]),
    (⟨1, some 7⟩, ["UNIX_TO_TIME"]),
    (⟨1, none⟩,
      ["ARRAY_CONCAT", "ARRAY_INTERSECT", "CHR", "COALESCE", "CONCAT", "CONCAT_WS", "EXPLODE",
       "EXPLODE_OUTER", "FIRST", "FORMAT", "GREATEST", "LAST", "LEAST", "MAX", "MIN",
       "POSEXPLODE", "READ_CSV", "READ_PARQUET"]),
    (⟨2, some 2⟩,
      ["ARRAY_ALL", "ARRAY_ANY", "ARRAY_EXCEPT", "ARRAY_REMOVE_AT", "ATAN2", "COLLATE", "CORR",
       "COSINE_DISTANCE", "COVAR_POP", "COVAR_SAMP", "DOT_PRODUCT", "ENDS_WITH", "EQUAL_NULL",
       "EUCLIDEAN_DISTANCE", "FILTER", "FROM_BASE", "LEFT", "MAP_CONTAINS_KEY", "NEXT_DAY",
       "NULLIF", "POWER", "PREVIOUS_DAY", "QUANTILE", "REGR_AVGX", "REGR_AVGY", "REGR_COUNT",
       "REGR_INTERCEPT", "REGR_R2", "REGR_SLOPE", "REGR_SXX", "REGR_SXY", "REGR_SYY", "REPEAT",
       "RIGHT", "SAFE_ADD", "SAFE_DIVIDE", "SAFE_MULTIPLY", "SAFE_SUBTRACT", "STARTS_WITH",
       "STRUCT_EXTRACT", "TRANSFORM"]),
    (⟨2, some 3⟩,
      ["ADD_MONTHS", "ARRAY_APPEND", "ARRAY_CONTAINS", "ARRAY_CONTAINS_ALL", "ARRAY_OVERLAPS",
       "ARRAY_POSITION", "ARRAY_PREPEND", "ARRAY_REMOVE", "ARRAY_TO_STRING", "CONTAINS",
       "DATETIME_ADD", "DATETIME_DIFF", "DATETIME_SUB", "DATETIME_TRUNC", "DATE_ADD",
       "GENERATE_DATE_ARRAY", "IF", "MONTHS_BETWEEN", "NVL2", "REGEXP_FULL_MATCH",
       "REGEXP_ILIKE", "REGEXP_LIKE", "REGEXP_SPLIT", "REPLACE", "TIMESTAMPDIFF",
       "TIMESTAMP_ADD", "TIMESTAMP_SUB", "TIME_ADD", "TIME_DIFF", "TIME_SUB", "TIME_TRUNC"]),
    (⟨2, some 4⟩,
      ["ARRAY_SLICE", "CONVERT_TIMEZONE", "DATE_BIN", "JAROWINKLER_SIMILARITY", "NTH_VALUE",
       "PAD", "REGEXP_COUNT", "SPLIT", "STR_POSITION", "TIMESTAMP_TRUNC", "TIME_TO_STR"]),
    (⟨2, some 5⟩, ["APPROX_QUANTILE", "STR_TO_TIME"]),
    (⟨2, some 7⟩, ["REGEXP_EXTRACT", "REGEXP_EXTRACT_ALL", "REGEXP_INSTR", "REGEXP_REPLACE"]),
    (⟨2, none⟩, ["ARG_MAX", "ARG_MIN", "ELT", "JSON_EXTRACT", "JSON_EXTRACT_SCALAR"]),
    (⟨3, some 3⟩, ["SUBSTRING_INDEX", "TRANSLATE"]),
    (⟨3, some 4⟩, ["ARRAY_INSERT", "REDUCE"]),
    (⟨3, none⟩, ["DATEDIFF", "TIME_FROM_PARTS"]),
    (⟨4, some 4⟩, ["STUFF"]),
    (⟨4, some 5⟩, ["WIDTH_BUCKET"])]

/-- Other names of functions, with the main ones. -/
def functionAliases : List (String × String) :=
  [("APPROX_COUNT_DISTINCT", "APPROX_DISTINCT"), ("ARGMAX", "ARG_MAX"), ("MAX_BY", "ARG_MAX"),
    ("ARGMIN", "ARG_MIN"), ("MIN_BY", "ARG_MIN"), ("ARRAYAGG", "ARRAY_AGG"),
    ("ARRAY_CAT", "ARRAY_CONCAT"), ("LIST_CONCAT", "ARRAY_CONCAT"),
    ("ARRAY_HAS", "ARRAY_CONTAINS"), ("LIST_CONTAINS", "ARRAY_CONTAINS"),
    ("LIST_HAS", "ARRAY_CONTAINS"), ("ARRAY_HAS_ALL", "ARRAY_CONTAINS_ALL"),
    ("LIST_HAS_ALL", "ARRAY_CONTAINS_ALL"), ("ARRAY_FILTER", "FILTER"), ("LIST_FILTER", "FILTER"),
    ("ARRAY_HAS_ANY", "ARRAY_OVERLAPS"), ("LIST_HAS_ANY", "ARRAY_OVERLAPS"),
    ("ARRAY_INTERSECTION", "ARRAY_INTERSECT"), ("ARRAY_JOIN", "ARRAY_TO_STRING"),
    ("ARRAY_LENGTH", "ARRAY_SIZE"), ("LIST_APPEND", "ARRAY_APPEND"),
    ("LIST_PREPEND", "ARRAY_PREPEND"), ("LIST_VALUE", "ARRAY"), ("LIST_TRANSFORM", "TRANSFORM"),
    ("LIST_COSINE_DISTANCE", "COSINE_DISTANCE"), ("LIST_DISTANCE", "EUCLIDEAN_DISTANCE"),
    ("ARRAY_SORT", "SORT_ARRAY"), ("LIST_SORT", "SORT_ARRAY"),
    ("ARRAY_REVERSE_SORT", "SORT_ARRAY"), ("LIST_REVERSE_SORT", "SORT_ARRAY"),
    ("BIT_AND", "BITWISE_AND_AGG"), ("BIT_OR", "BITWISE_OR_AGG"), ("BIT_XOR", "BITWISE_XOR_AGG"),
    ("BIT_COUNT", "BITWISE_COUNT"), ("BOOL_AND", "LOGICAL_AND"), ("BOOLAND_AGG", "LOGICAL_AND"),
    ("BOOL_OR", "LOGICAL_OR"), ("BOOLOR_AGG", "LOGICAL_OR"), ("CHAR", "CHR"),
    ("CHAR_LENGTH", "LENGTH"), ("CHARACTER_LENGTH", "LENGTH"), ("LEN", "LENGTH"),
    ("COUNTIF", "COUNT_IF"), ("CURRENT_LOCALTIMESTAMP", "LOCALTIMESTAMP"),
    ("GET_CURRENT_TIME", "CURRENT_TIME"), ("DATE_DIFF", "DATEDIFF"),
    ("DATE_TRUNC", "TIMESTAMP_TRUNC"), ("DATETRUNC", "TIMESTAMP_TRUNC"),
    ("DATEFROMPARTS", "DATE_FROM_PARTS"), ("MAKE_DATE", "DATE_FROM_PARTS"),
    ("TIMEFROMPARTS", "TIME_FROM_PARTS"), ("MAKE_TIME", "TIME_FROM_PARTS"),
    ("DAYOFMONTH", "DAY_OF_MONTH"), ("DAYOFWEEK", "DAY_OF_WEEK"), ("DAYOFYEAR", "DAY_OF_YEAR"),
    ("ISODOW", "DAYOFWEEK_ISO"), ("WEEKOFYEAR", "WEEK_OF_YEAR"), ("EDITDIST3", "LEVENSHTEIN"),
    ("ENDSWITH", "ENDS_WITH"), ("STARTSWITH", "STARTS_WITH"), ("EPOCH", "TIME_TO_UNIX"),
    ("EPOCH_MS", "UNIX_TO_TIME"), ("TO_TIMESTAMP", "UNIX_TO_TIME"), ("IFNULL", "COALESCE"),
    ("NVL", "COALESCE"), ("IIF", "IF"), ("ISINF", "IS_INF"), ("ISNAN", "IS_NAN"),
    ("JSON", "PARSE_JSON"), ("JSON_PARSE", "PARSE_JSON"), ("JSON_EXTRACT_PATH", "JSON_EXTRACT"),
    ("JSON_EXTRACT_STRING", "JSON_EXTRACT_SCALAR"),
    ("JSON_EXTRACT_PATH_TEXT", "JSON_EXTRACT_SCALAR"), ("LAST_DAY_OF_MONTH", "LAST_DAY"),
    ("LCASE", "LOWER"), ("UCASE", "UPPER"), ("LPAD", "PAD"), ("RPAD", "PAD"), ("LEFTPAD", "PAD"),
    ("RIGHTPAD", "PAD"), ("POW", "POWER"), ("QUANTILE_CONT", "PERCENTILE_CONT"),
    ("QUANTILE_DISC", "PERCENTILE_DISC"), ("RANDOM", "RAND"), ("RANGE", "GENERATE_SERIES"),
    ("REGEXP_MATCHES", "REGEXP_LIKE"), ("RLIKE", "REGEXP_LIKE"), ("SHA1", "SHA"),
    ("SHA256", "SHA2"), ("SIGNUM", "SIGN"), ("STDEV", "STDDEV"), ("STRPOS", "STR_POSITION"),
    ("INSTR", "STR_POSITION"), ("LOCATE", "STR_POSITION"), ("CHARINDEX", "STR_POSITION"),
    ("STRING_SPLIT", "SPLIT"), ("STR_SPLIT", "SPLIT"), ("STRING_TO_ARRAY", "SPLIT"),
    ("SPLIT_BY_STRING", "STRING_TO_ARRAY"), ("STRTOK_TO_ARRAY", "STRING_TO_ARRAY"),
    ("JARO_WINKLER_SIMILARITY", "JAROWINKLER_SIMILARITY"), ("ST_MAKEPOINT", "ST_POINT"),
    ("FARMFINGERPRINT64", "FARM_FINGERPRINT"), ("TS_OR_DS_TO_DATE_STR", "SUBSTRING"),
    ("UUID_STRING", "UUID"), ("TIMESTAMPLTZFROMPARTS", "TIMESTAMP_LTZ_FROM_PARTS"),
    ("TIMESTAMPTZFROMPARTS", "TIMESTAMP_TZ_FROM_PARTS"),
    ("STRING_SPLIT_REGEX", "REGEXP_SPLIT"), ("STR_SPLIT_REGEX", "REGEXP_SPLIT"),
    ("STRUCT_PACK", "STRUCT"), ("STRFTIME", "TIME_TO_STR"), ("STRPTIME", "STR_TO_TIME"),
    ("SUBSTR", "SUBSTRING"), ("TIME_BUCKET", "DATE_BIN"), ("TO_HEX", "HEX"),
    ("TRUNCATE", "TRUNC"), ("UNNEST", "EXPLODE"), ("VAR_POP", "VARIANCE_POP"),
    ("VAR_SAMP", "VARIANCE"), ("VARIANCE_SAMP", "VARIANCE"), ("VERSION", "CURRENT_VERSION"),
    ("GEN_RANDOM_UUID", "UUID"), ("GENERATE_UUID", "UUID"), ("CEILING", "CEIL"),
    ("LTRIM", "TRIM"), ("RTRIM", "TRIM"), ("LOG2", "LOG"), ("LOG10", "LOG"),
    ("TIMESTAMP_DIFF", "TIMESTAMPDIFF"), ("INSERT", "STUFF"), ("LIST_MAX", "ARRAY_MAX"),
    ("LIST_MIN", "ARRAY_MIN"), ("GET_BIT", "GETBIT"), ("YEAROFWEEK", "YEAR_OF_WEEK"),
    ("YEAROFWEEKISO", "YEAR_OF_WEEK_ISO"), ("TO_VARCHAR", "TO_CHAR"),
    ("TIMESTAMPFROMPARTS", "TIMESTAMP_FROM_PARTS"), ("DATE_TO_DATE_STR", "CAST"),
    ("TIME_TO_TIME_STR", "CAST")]

/-- Functions of whole groups of rows. -/
def groupFunctions : List String :=
  ["APPROX_DISTINCT", "ARG_MAX", "ARG_MIN", "ARRAY_AGG", "AVG", "BITWISE_AND_AGG",
    "BITWISE_OR_AGG", "BITWISE_XOR_AGG", "CORR", "COUNT", "COUNT_IF", "COVAR_POP", "COVAR_SAMP",
    "CUME_DIST", "DENSE_RANK", "FIRST", "FIRST_VALUE", "GROUP_CONCAT", "LAG", "LAST",
    "LAST_VALUE", "LEAD", "LOGICAL_AND", "LOGICAL_OR", "MAX", "MEDIAN", "MIN", "MODE",
    "NTH_VALUE", "NTILE", "PERCENT_RANK", "PERCENTILE_CONT", "PERCENTILE_DISC", "QUANTILE",
    "RANK", "STDDEV", "STDDEV_POP", "STDDEV_SAMP", "SUM", "VARIANCE", "VARIANCE_POP"]

/-- The main name of a function. -/
def functionName (key : String) : String := (functionAliases.lookup key).getD key

/-- The number of arguments of a function, if it is known by its own or its main name. -/
def functionArity? (key : String) : Option Arity :=
  match functionArities.find? (·.2.contains key) with
  | some (a, _) => some a
  | none => (functionArities.find? (·.2.contains (functionName key))).map (·.1)

end Tabula
