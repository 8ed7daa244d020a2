import Strongbox.Settings.Address

/-!
# Dialects and their drivers

Which drivers there are for each kind of database, and what happens when something else is asked for: a
dialect has parts that are no drivers, like its types.
-/

namespace Strongbox.Engine

inductive DriverKind where
  | asynchronous
  | synchronous
  | missing
  deriving DecidableEq, Repr

structure Dialect where
  name : String
  /-- The first one is used when an address names none. -/
  drivers : List (String × DriverKind)
  parts : List String

namespace Dialect

def sqlite : Dialect where
  name := "sqlite"
  drivers :=
    [("pysqlite", .synchronous), ("aiosqlite", .asynchronous), ("pysqlcipher", .missing),
      ("base", .synchronous)]
  parts :=
    ["json", "dml", "dialect", "insert", "Insert", "BLOB", "BOOLEAN", "CHAR", "DATE", "DATETIME", "DECIMAL",
      "FLOAT", "INTEGER", "JSON", "NUMERIC", "REAL", "SMALLINT", "TEXT", "TIME", "TIMESTAMP", "VARCHAR"]

def postgresql : Dialect where
  name := "postgresql"
  drivers :=
    [("psycopg", .missing), ("asyncpg", .asynchronous), ("psycopg2", .missing), ("psycopg_async", .missing),
      ("pg8000", .missing), ("psycopg2cffi", .missing), ("base", .missing)]
  parts :=
    ["array", "arraylib", "bitstring", "dml", "ext", "hstore", "json", "named_types", "operators",
      "pg_catalog", "ranges", "types", "dialect", "insert", "Insert", "All", "Any", "ARRAY", "BIGINT",
      "BOOLEAN", "CHAR", "DATE", "DOMAIN", "DOUBLE_PRECISION", "FLOAT", "INTEGER", "NUMERIC", "REAL",
      "SMALLINT", "TEXT", "UUID", "VARCHAR", "aggregate_order_by", "array_agg", "distinct_on",
      "ExcludeConstraint", "phraseto_tsquery", "plainto_tsquery", "to_tsquery", "to_tsvector",
      "ts_headline", "websearch_to_tsquery", "HSTORE", "JSON", "JSONB", "JSONPATH", "CreateDomainType",
      "CreateEnumType", "DropDomainType", "DropEnumType", "ENUM", "NamedType", "AbstractMultiRange",
      "AbstractRange", "AbstractSingleRange", "DATEMULTIRANGE", "DATERANGE", "INT4MULTIRANGE", "INT4RANGE",
      "INT8MULTIRANGE", "INT8RANGE", "MultiRange", "NUMMULTIRANGE", "NUMRANGE", "Range", "TSMULTIRANGE",
      "TSRANGE", "TSTZMULTIRANGE", "TSTZRANGE", "BIT", "BYTEA", "CIDR", "CITEXT", "INET", "INTERVAL",
      "MACADDR", "MACADDR8", "MONEY", "OID", "REGCLASS", "REGCONFIG", "TIME", "TIMESTAMP", "TSQUERY",
      "TSVECTOR"]

def mysql : Dialect where
  name := "mysql"
  drivers :=
    [("mysqldb", .missing), ("pymysql", .missing), ("aiomysql", .missing), ("asyncmy", .missing),
      ("mysqlconnector", .missing), ("cymysql", .missing), ("pyodbc", .missing),
      ("mariadbconnector", .missing), ("base", .missing)]
  parts :=
    ["dml", "enumerated", "expression", "json", "mariadb", "reflection", "reserved_words", "types",
      "dialect", "insert", "Insert", "limit", "match", "BIGINT", "BINARY", "BIT", "BLOB", "BOOLEAN", "CHAR",
      "DATE", "DATETIME", "DECIMAL", "DOUBLE", "ENUM", "FLOAT", "INET4", "INET6", "INTEGER", "JSON",
      "LONGBLOB", "LONGTEXT", "MEDIUMBLOB", "MEDIUMINT", "MEDIUMTEXT", "NCHAR", "NUMERIC", "NVARCHAR",
      "REAL", "SET", "SMALLINT", "TEXT", "TIME", "TIMESTAMP", "TINYBLOB", "TINYINT", "TINYTEXT",
      "VARBINARY", "VARCHAR", "YEAR"]

def mariadb : Dialect where
  name := "mariadb"
  drivers :=
    [("mysqldb", .missing), ("pymysql", .missing), ("aiomysql", .missing), ("asyncmy", .missing),
      ("mysqlconnector", .missing), ("cymysql", .missing), ("pyodbc", .missing),
      ("mariadbconnector", .missing), ("base", .missing)]
  parts :=
    ["dml", "enumerated", "expression", "json", "mariadb", "reflection", "reserved_words", "types"]

def oracle : Dialect where
  name := "oracle"
  drivers :=
    [("oracledb", .missing), ("oracledb_async", .missing), ("cx_oracle", .missing), ("base", .missing)]
  parts :=
    ["dictionary", "types", "vector", "dialect", "BFILE", "BINARY_DOUBLE", "BINARY_FLOAT", "BLOB",
      "BOOLEAN", "CHAR", "CLOB", "DATE", "DOUBLE_PRECISION", "FLOAT", "INTERVAL", "LONG", "NCHAR", "NCLOB",
      "NUMBER", "NVARCHAR", "NVARCHAR2", "RAW", "REAL", "ROWID", "TIMESTAMP", "VARCHAR", "VARCHAR2",
      "VECTOR"]

def mssql : Dialect where
  name := "mssql"
  drivers :=
    [("pyodbc", .missing), ("pymssql", .missing), ("aioodbc", .missing), ("mssqlpython", .missing),
      ("base", .missing)]
  parts :=
    ["information_schema", "json", "dialect", "try_cast", "BIGINT", "BINARY", "BIT", "CHAR", "DATE",
      "DATETIME", "DATETIME2", "DATETIMEOFFSET", "DECIMAL", "DOUBLE_PRECISION", "FLOAT", "IMAGE", "INTEGER",
      "JSON", "MONEY", "NCHAR", "NTEXT", "NUMERIC", "NVARCHAR", "REAL", "ROWVERSION", "SMALLDATETIME",
      "SMALLINT", "SMALLMONEY", "SQL_VARIANT", "TEXT", "TIME", "TIMESTAMP", "TINYINT", "UNIQUEIDENTIFIER",
      "VARBINARY", "VARCHAR", "XML"]

end Dialect

def dialects : List Dialect := [.sqlite, .postgresql, .mysql, .mariadb, .oracle, .mssql]

def findDriver (name : Text) : Except BuildError (String × String × DriverKind) := do
  let (dialect, driver) ← match Text.splitBy (· == 43) name with
    | [dialect] => pure (dialect, none)
    | [dialect, driver] => pure (dialect, some driver)
    | _ => .error (.fault .badValue)
  let some d := dialects.find? fun d => Text.ofString d.name == dialect | .error .unknownModule
  let found := match driver with
    | none => d.drivers.head?
    | some driver => d.drivers.find? fun (n, _) => Text.ofString n == driver
  match found with
  | some (driver, kind) => pure (d.name, driver, kind)
  | none =>
    .error (if (driver.any fun driver => d.parts.any fun n => Text.ofString n == driver) then
      .fault .noSuchOperation else .unknownModule)

end Strongbox.Engine
