/-! The kinds of databases, and the drivers that reach them. -/
namespace Renewals.Store

/-- What the table of subscriptions can be defined in. -/
inductive Dialect
  | sqlite
  | postgres
  deriving DecidableEq, Repr

/-- A driver may need a library that is not installed. Databases of other kinds have a driver, but
no definition of the table. -/
structure Driver where
  name : String
  dialect : Option Dialect
  missing : Option String
  deriving DecidableEq, Repr

/-- Under one name for the kind of database alone, and one more for each way to reach it. -/
def Driver.ofKind (kind : String) (dialect : Option Dialect) (own : Option String)
    (others : List (String × Option String)) : List Driver :=
  ⟨kind, dialect, own⟩ :: ⟨kind ++ ".base", dialect, own⟩ ::
    others.map fun d => ⟨kind ++ "." ++ d.1, dialect, d.2⟩

def sqliteDrivers : List (String × Option String) :=
  [("pysqlite", none), ("aiosqlite", some "aiosqlite"), ("pysqlcipher", some "pysqlcipher3")]

def postgresDrivers : List (String × Option String) :=
  [("psycopg", none), ("psycopg_async", none), ("psycopg2", some "psycopg2"),
    ("psycopg2cffi", some "psycopg2cffi"), ("asyncpg", some "asyncpg"), ("pg8000", some "pg8000")]

def mysqlDrivers : List (String × Option String) :=
  [("mysqldb", some "MySQLdb"), ("pymysql", some "pymysql"), ("aiomysql", some "aiomysql"),
    ("asyncmy", some "asyncmy"), ("cymysql", some "cymysql"),
    ("mariadbconnector", some "mariadb"), ("mysqlconnector", some "mysql"),
    ("pyodbc", some "pyodbc")]

def oracleDrivers : List (String × Option String) :=
  [("cx_oracle", some "cx_Oracle"), ("oracledb", some "oracledb"),
    ("oracledb_async", some "oracledb")]

def mssqlDrivers : List (String × Option String) :=
  [("pyodbc", some "pyodbc"), ("pymssql", some "pymssql"), ("aioodbc", some "aioodbc")]

def drivers : List Driver :=
  Driver.ofKind "sqlite" (some .sqlite) none sqliteDrivers ++
    Driver.ofKind "postgresql" (some .postgres) (some "psycopg2") postgresDrivers ++
    Driver.ofKind "mysql" none (some "MySQLdb") mysqlDrivers ++
    Driver.ofKind "mariadb" none (some "MySQLdb") mysqlDrivers ++
    Driver.ofKind "oracle" none (some "cx_Oracle") oracleDrivers ++
    Driver.ofKind "mssql" none (some "pyodbc") mssqlDrivers

def driver? (name : String) : Option Driver := drivers.find? (·.name == name)

end Renewals.Store
