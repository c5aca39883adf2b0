import Tabula.Expr.Lexeme

/-!
Which words may be names, and which may be called. A word that stands in none of the lists is a
name like any other. Words are given in capitals.
-/

namespace Tabula

/-- Words for types; they are names as well, and may be called. -/
def typeWords : List String :=
  ["BIT", "BITSTRING", "BOOL", "BOOLEAN", "LOGICAL", "BYTE", "MEDIUMINT", "INT1", "TINYINT",
    "INT16", "SHORT", "SMALLINT", "HUGEINT", "UHUGEINT", "INT2", "INTEGER", "INT", "INT4",
    "INT32", "SIGNED", "INT64", "INT128", "INT256", "LONG", "BIGINT", "INT8", "UINT", "UINT128",
    "UINT256", "UBIGINT", "UINTEGER", "USMALLINT", "UTINYINT", "DEC", "DECIMAL", "DECIMAL32",
    "DECIMAL64", "DECIMAL128", "DECIMAL256", "DECFLOAT", "BIGDECIMAL", "BIGNUMERIC", "BIGNUM",
    "NUMBER", "NUMERIC", "FIXED", "REAL", "FLOAT", "FLOAT4", "FLOAT8", "DOUBLE",
    "DOUBLE PRECISION", "JSON", "JSONB", "CHAR", "CHARACTER", "CHAR VARYING",
    "CHARACTER VARYING", "NCHAR", "VARCHAR", "VARCHAR2", "NVARCHAR", "NVARCHAR2", "BPCHAR", "STR",
    "STRING", "TEXT", "LONGTEXT", "MEDIUMTEXT", "TINYTEXT", "CLOB", "LONGVARCHAR", "BINARY",
    "BLOB", "LONGBLOB", "MEDIUMBLOB", "TINYBLOB", "BYTEA", "VARBINARY", "TIME", "TIMETZ",
    "TIME_NS", "TIMESTAMP", "TIMESTAMPTZ", "TIMESTAMPLTZ", "TIMESTAMP_LTZ", "TIMESTAMPNTZ",
    "TIMESTAMP_NTZ", "TIMESTAMP_S", "TIMESTAMP_MS", "TIMESTAMP_NS", "TIMESTAMP_US", "DATE",
    "DATETIME", "INT4RANGE", "INT4MULTIRANGE", "INT8RANGE", "INT8MULTIRANGE", "NUMRANGE",
    "NUMMULTIRANGE", "TSRANGE", "TSMULTIRANGE", "TSTZRANGE", "TSTZMULTIRANGE", "DATERANGE",
    "DATEMULTIRANGE", "VECTOR", "STRUCT", "ROW", "VARIANT", "OBJECT", "ENUM", "ARRAY", "LIST",
    "MAP", "NULLABLE", "INET", "UUID", "GEOGRAPHY", "GEOMETRY", "INTERVAL", "UNKNOWN", "NULL",
    "RANGE", "FILE", "UNION"]

/-- Types that have types as their parameters. -/
def nestedTypeWords : List String :=
  ["ARRAY", "FILE", "LIST", "MAP", "NULLABLE", "RANGE", "STRUCT", "ROW", "OBJECT", "UNION"]

/-- Types whose parameters are named fields. -/
def structTypeWords : List String := ["FILE", "STRUCT", "ROW", "OBJECT", "UNION"]

def timestampWords : List String :=
  ["TIME", "TIMETZ", "TIMESTAMP", "TIMESTAMPTZ", "TIMESTAMPLTZ", "TIMESTAMP_LTZ", "TIMESTAMPNTZ",
    "TIMESTAMP_NTZ", "TIMESTAMP_US", "DATETIME"]

/-- Words that may be names, but are not called. -/
def nameWords : List String :=
  ["ANALYZE", "ATTACH", "ANTI", "APPLY", "ASC", "ASOF", "AUTOINCREMENT", "AUTO_INCREMENT",
    "BEGIN", "CACHE", "CASE", "COLUMN", "COMMENT", "COMMIT", "CONSTRAINT", "COPY", "CUBE",
    "DATABASE", "DEFAULT", "DELETE", "DESC", "DESCRIBE", "DETACH", "DIV", "END", "ESCAPE",
    "EXECUTE", "FALSE", "FOREIGN KEY", "FULL", "FUNCTION", "IN", "IS", "KEEP", "KILL", "LIMIT",
    "LOAD", "LOCK", "MACRO", "NAMESPACE", "NATURAL", "OPERATOR", "ORDINALITY", "OVERLAPS",
    "OVERWRITE", "PARTITION", "PERCENT", "PIVOT", "PIVOT_WIDER", "PRAGMA", "PROCEDURE",
    "RECURSIVE", "REFERENCES", "RENAME", "ROLLUP", "ROWS", "SCHEMA", "SEMI", "SESSION", "SET",
    "SETTINGS", "SHOW", "TEMP", "TEMPORARY", "TRUE", "UNIQUE", "UNPIVOT", "UPDATE", "USE", "VIEW",
    "VOLATILE"]

/-- Words that may be called, but are no names. -/
def calledWords : List String :=
  ["GLOB", "ILIKE", "INSERT", "LIKE", "PRIMARY KEY", "REGEXP", "RLIKE", "XOR"]

/-- Words that are neither names nor called. -/
def reservedWords : List String :=
  ["ALTER", "AND", "AS", "BETWEEN", "CHARACTER SET", "CLUSTER BY", "CONNECT BY", "CREATE",
    "CROSS", "DISTINCT", "DISTRIBUTE BY", "DROP", "ELSE", "EXCEPT", "FETCH", "FOR",
    "FOR TIMESTAMP", "FOR VERSION", "FORCE", "FROM", "GRANT", "GROUP BY", "GROUPING SETS",
    "HAVING", "INNER", "INSTALL", "INTERSECT", "INTO", "JOIN", "LATERAL", "NOT", "NOTNULL", "ON",
    "ONLY", "OR", "ORDER BY", "OUTER", "OVER", "PARTITION BY", "PARTITIONED BY", "POSITIONAL",
    "QUALIFY", "RETURNING", "REVOKE", "ROLLBACK", "SELECT", "SIMILAR TO", "SORT BY", "START WITH",
    "STRAIGHT_JOIN", "SUMMARIZE", "TABLESAMPLE", "THEN", "UNCACHE", "USING", "VALUES", "WHEN",
    "WHERE", "WITH"]

/-- Words that call a function without parentheses. -/
def bareCalls : List String :=
  ["CURRENT_CATALOG", "CURRENT_DATE", "CURRENT_TIME", "CURRENT_TIMESTAMP", "CURRENT_USER",
    "LOCALTIME", "LOCALTIMESTAMP", "SESSION_USER"]

/-- Words that are called or begin clauses, and so are no names of types. -/
def clauseWords : List String :=
  ["ALL", "ANY", "CALL", "COLLATE", "CURRENT_SCHEMA", "EXISTS", "EXPLAIN", "FILTER", "FIRST",
    "FORMAT", "INDEX", "ISNULL", "LEFT", "MERGE", "NEXT", "OFFSET", "OPTIMIZE", "PREPARE",
    "REPLACE", "RESET", "RIGHT", "SEQUENCE", "SOME", "TABLE", "TRUNCATE", "UNNEST", "VACUUM",
    "WINDOW"]

namespace Token

def isPlain : Token → Bool
  | word _ => true
  | mark "//" | mark "`" => true
  | _ => false

/-- Whether a token may be a name: a quoted one always is, a word unless it is reserved. -/
def mayName (t : Token) : Bool :=
  match t with
  | name _ => true
  | t => t.isPlain && t.key ≠ "UNION" && !calledWords.contains t.key &&
      !reservedWords.contains t.key

/-- Whether a token may be a name where one has to come: anything but punctuation and few words. -/
def mustName : Token → Bool
  | mark m => 1 < m.length && m ≠ "=="
  | t => t.key ≠ "SELECT" && t.key ≠ "NOT" && t.key ≠ "UNKNOWN"

/-- Whether a token may be the name of a function before a parenthesis. -/
def mayCall (t : Token) : Bool :=
  match t with
  | name _ => true
  | word _ => !nameWords.contains t.key && !reservedWords.contains t.key
  | t => t.key ≠ "" && calledWords.contains t.key

/-- Whether a token is a word without any other use. -/
def isFree : Token → Bool
  | .word w =>
      let k := Text.upper w
      [typeWords, nameWords, calledWords, reservedWords, bareCalls, clauseWords].all
        fun ws => !ws.contains k
  | _ => false

end Token

end Tabula
