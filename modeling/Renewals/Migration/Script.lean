import Renewals.Migration.Definition
/-! Migrations as a script for a database that cannot be reached, and as steps on one that can. -/
namespace Renewals.Migration
open Store (Dialect)

inductive Direction
  | upgrade
  | downgrade
  deriving DecidableEq, Repr

/-- The row of the revision, whose column is named in full where names are qualified. -/
def insertRevision (d : Dialect) : String :=
  let column := match d with
    | .sqlite => "version_num"
    | .postgres => s!"{versionTable}.version_num"
  s!"INSERT INTO {versionTable} (version_num) VALUES ('{revision}') RETURNING {column}"

def deleteRevision : String :=
  s!"DELETE FROM {versionTable} WHERE {versionTable}.version_num = '{revision}'"

def heading (dir : Direction) : String :=
  match dir with
  | .upgrade => s!"-- Running upgrade  -> {revision}"
  | .downgrade => s!"-- Running downgrade {revision} -> "

/-- Statements and the heading, each a paragraph; statements end in a semicolon. -/
def paragraphs (d : Dialect) (dir : Direction) : List String :=
  match dir with
  | .upgrade =>
    [createVersionTable "    " ++ ";", heading dir, createTable d "    " ++ ";"] ++
      indexes.map (fun i => createIndex i ++ ";") ++ [insertRevision d ++ ";"]
  | .downgrade =>
    [heading dir] ++ indexes.reverse.map (fun i => s!"DROP INDEX {i.name};") ++
      [s!"DROP TABLE {tableName};", deleteRevision ++ ";"]

/-- A script is one transaction where definitions can be undone. -/
def script (d : Dialect) (dir : Direction) : String :=
  let body := paragraphs d dir
  let all := match d with
    | .sqlite => body
    | .postgres => ["BEGIN;"] ++ body ++ ["COMMIT;"]
  String.join (all.map (· ++ "\n\n"))

/-- What a database holds of the migrations. -/
structure Stage where
  versioned : Bool
  applied : Bool
  deriving DecidableEq, Repr

def Stage.fresh : Stage := ⟨false, false⟩

/-- Any step provides the table of versions; one that is done already does no more. -/
def Stage.step (dir : Direction) (_ : Stage) : Stage := ⟨true, dir = .upgrade⟩

/-- A defined object: its kind, its name and its statement, if it has one. -/
structure Object where
  kind : String
  name : String
  statement : Option String
  deriving DecidableEq, Repr

def Stage.indexObjects (s : Stage) : List Object :=
  (if s.applied then indexes.reverse.map fun i => ⟨"index", i.name, some (createIndex i)⟩ else []) ++
    if s.versioned then [⟨"index", s!"sqlite_autoindex_{versionTable}_1", none⟩] else []

def Stage.tableObjects (s : Stage) : List Object :=
  (if s.versioned then [⟨"table", versionTable, some (createVersionTable "\t")⟩] else []) ++
    if s.applied then [⟨"table", tableName, some (createTable .sqlite "\t")⟩] else []

/-- By kind and name. -/
def Stage.objects (s : Stage) : List Object := s.indexObjects ++ s.tableObjects

def Stage.versions (s : Stage) : List String := if s.applied then [revision] else []

end Renewals.Migration
