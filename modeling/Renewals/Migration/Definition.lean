import Renewals.Store.Dialect
/-! The table of subscriptions as the statements that define it, in two dialects. -/
namespace Renewals.Migration
open Store (Dialect)

inductive ColumnType
  | serial
  | whole
  | text (size : Nat)
  | date
  | truth
  | timestamp
  deriving DecidableEq, Repr

inductive Default
  | none
  | literal (s : String)
  | now
  deriving DecidableEq, Repr

structure Column where
  name : String
  type : ColumnType
  nullable : Bool
  default : Default
  deriving DecidableEq, Repr

structure Check where
  name : String
  condition : String
  deriving DecidableEq, Repr

structure Index where
  name : String
  column : String
  deriving DecidableEq, Repr

def ColumnType.text? (d : Dialect) : ColumnType → String
  | .serial => match d with | .sqlite => "INTEGER" | .postgres => "SERIAL"
  | .whole => "INTEGER"
  | .text n => s!"VARCHAR({n})"
  | .date => "DATE"
  | .truth => "BOOLEAN"
  | .timestamp => match d with | .sqlite => "TIMESTAMP" | .postgres => "TIMESTAMP WITH TIME ZONE"

def Default.clause (d : Dialect) : Default → String
  | .none => ""
  | .literal s => s!" DEFAULT '{s}'"
  | .now => match d with | .sqlite => " DEFAULT CURRENT_TIMESTAMP" | .postgres => " DEFAULT now()"

def Column.clause (d : Dialect) (c : Column) : String :=
  c.name ++ " " ++ c.type.text? d ++ c.default.clause d ++ (if c.nullable then "" else " NOT NULL")

def Check.clause (c : Check) : String := s!"CONSTRAINT {c.name} CHECK ({c.condition})"

def columns : List Column :=
  [⟨"id", .serial, false, .none⟩, ⟨"service_name", .text 255, false, .none⟩,
    ⟨"price", .whole, false, .none⟩, ⟨"username", .text 255, false, .none⟩,
    ⟨"user_uid", .text 64, true, .none⟩, ⟨"start_date", .date, false, .none⟩,
    ⟨"counter_months", .whole, false, .none⟩, ⟨"next_payment_date", .date, true, .none⟩,
    ⟨"is_active", .truth, false, .literal "true"⟩, ⟨"created_at", .timestamp, false, .now⟩]

def checks : List Check :=
  [⟨"ck_subscriptions_price_non_negative", "price >= 0"⟩,
    ⟨"ck_subscriptions_counter_months_positive", "counter_months > 0"⟩]

def indexes : List Index :=
  [⟨"ix_subscriptions_username", "username"⟩,
    ⟨"ix_subscriptions_next_payment_date", "next_payment_date"⟩]

def tableName : String := "subscriptions"
def versionTable : String := "alembic_version"
def revision : String := "a1c3e5f7b9d2"

/-- One clause a line, each with its indent. -/
def createText (name indent : String) (clauses : List String) : String :=
  s!"CREATE TABLE {name} (\n" ++ ", \n".intercalate (clauses.map (indent ++ ·)) ++ "\n)"

def createTable (d : Dialect) (indent : String) : String :=
  createText tableName indent
    (columns.map (·.clause d) ++ ["PRIMARY KEY (id)"] ++ checks.map (·.clause))

def createVersionTable (indent : String) : String :=
  createText versionTable indent
    ["version_num VARCHAR(32) NOT NULL",
      "CONSTRAINT alembic_version_pkc PRIMARY KEY (version_num)"]

def createIndex (i : Index) : String := s!"CREATE INDEX {i.name} ON {tableName} ({i.column})"

end Renewals.Migration
