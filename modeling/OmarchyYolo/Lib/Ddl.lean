import Mathlib.Algebra.GroupWithZero.Nat
import OmarchyYolo.Lib.Dict
import OmarchyYolo.Lib.Transaction

/-!
# OmarchyYolo.Lib.Ddl — statements that change the tables of a database

A database as its tables, its indexes and its version, and the statements of a
migration: tables are made, dropped and renamed, columns are added, rows are
updated in place or copied. Foreign keys are enforced and cascade.

* `Statement`, `execute`, `runStatements` — the statements and their runs;
* `Carries` — the rows of a table are still there, with their values in some columns;
* `Statement.Keeps`, `runStatements_carries`: statements that only add to a table;
* `rebuild_carries`: a table that is copied, dropped and replaced by its copy.
-/

namespace Ddl

open Py Txn

variable {T C I V : Type} [DecidableEq T]

/-! ## Databases -/

/-- A row has a value in every column; `none` is NULL. -/
abbrev Row (C V : Type) := C → Option V

structure Column (C V : Type) where
  name : C
  notNull : Bool := false
  default : Option V := none
  check : V → Bool := fun _ => true

/-- A foreign key, `ON DELETE CASCADE`. -/
structure ForeignKey (T C : Type) where
  columns : List C
  parent : T
  parentColumns : List C

/-- A table; the primary key is among its unique keys. -/
structure Table (T C V : Type) where
  columns : List (Column C V)
  unique : List (List C) := []
  foreignKeys : List (ForeignKey T C) := []
  rows : List (Row C V) := []

structure Index (I T C : Type) where
  name : I
  table : T
  columns : List C
  unique : Bool := false

structure Database (T C I V : Type) where
  tables : List (T × Table T C V)
  indexes : List (Index I T C) := []
  version : Nat

namespace Database

variable (db : Database T C I V)

def table? (name : T) : Option (Table T C V) := dictGet? name db.tables

/-- The rows of a table, none if there is no such table. -/
def rows (name : T) : List (Row C V) := ((db.table? name).map Table.rows).getD []

/-- The database with a table in the place of the one of its name. -/
def setTable (name : T) (table : Table T C V) : Database T C I V :=
  { db with tables := dictSet name (fun _ => table) db.tables }

end Database

/-! ## Lookups -/

section Lookups

variable {db : Database T C I V} {name other : T} {table : Table T C V}

theorem Database.table?_setTable :
    (db.setTable name table).table? other = if other = name then some table else db.table? other :=
  dictGet?_dictSet

theorem Database.rows_setTable :
    (db.setTable name table).rows other = if other = name then table.rows else db.rows other := by
  rw [Database.rows, Database.table?_setTable]
  split_ifs with h
  · rfl
  · rfl

theorem Database.rows_of_table? (h : db.table? name = some table) : db.rows name = table.rows := by
  rw [Database.rows, h]
  rfl

theorem Database.rows_of_none (h : db.table? name = none) : db.rows name = [] := by
  rw [Database.rows, h]
  rfl

theorem dictGet?_filter_ne {κ ν : Type} [DecidableEq κ] {key k : κ} {d : List (κ × ν)} :
    dictGet? k (d.filter (·.1 ≠ key)) = if k = key then none else dictGet? k d := by
  induction d with
  | nil => simp [dictGet?]
  | cons item items ih =>
    obtain ⟨k', v⟩ := item
    by_cases hk' : k' = key
    · rw [List.filter_cons_of_neg (by simpa using hk'), ih, dictGet?]
      split_ifs with hk h
      · rfl
      · exact absurd (h.symm.trans hk') hk
      · rfl
    · rw [List.filter_cons_of_pos (by simpa using hk'), dictGet?, dictGet?, ih]
      split_ifs with h hk
      · exact absurd (h.trans hk) hk'
      · rfl
      · rfl
      · rfl

theorem dictGet?_map {κ ν μ : Type} [DecidableEq κ] {k : κ} {d : List (κ × ν)} (f : ν → μ) :
    dictGet? k (d.map fun item => (item.1, f item.2)) = (dictGet? k d).map f := by
  induction d with
  | nil => rfl
  | cons item items ih =>
    rw [List.map_cons, dictGet?, dictGet?, ih]
    split_ifs <;> rfl

end Lookups

/-! ## What is carried over -/

/-- Rows one by one with the same values in these columns. -/
abbrev Agree (columns : List C) : List (Row C V) → List (Row C V) → Prop :=
  List.Forall₂ fun row row' => ∀ c ∈ columns, row' c = row c

theorem Agree.refl (columns : List C) (rows : List (Row C V)) : Agree columns rows rows :=
  List.forall₂_same.mpr fun _ _ _ _ => rfl

theorem Agree.trans {columns : List C} {rows rows' rows'' : List (Row C V)}
    (h : Agree columns rows rows') (h' : Agree columns rows' rows'') :
    Agree columns rows rows'' := by
  induction h generalizing rows'' with
  | nil =>
    cases h'
    exact .nil
  | cons hfirst _ ih =>
    cases h' with
    | cons hsecond hrest => exact .cons (fun c hc => (hsecond c hc).trans (hfirst c hc)) (ih hrest)

/-- The table is still there, and has the same rows in the same order, with their values in
these columns. -/
structure Carries (columns : List C) (name : T) (db db' : Database T C I V) : Prop where
  table : (db.table? name).isSome → (db'.table? name).isSome
  rows : Agree columns (db.rows name) (db'.rows name)

section Carries

variable {db db' db'' : Database T C I V} {name other : T} {columns : List C}

theorem Carries.refl (columns : List C) (name : T) (db : Database T C I V) :
    Carries columns name db db :=
  ⟨id, .refl columns _⟩

theorem Carries.trans (h : Carries columns name db db') (h' : Carries columns name db' db'') :
    Carries columns name db db'' :=
  ⟨fun hsome => h'.table (h.table hsome), h.rows.trans h'.rows⟩

/-- Nothing happened to the table. -/
theorem carries_of_table?_eq (h : db'.table? name = db.table? name) :
    Carries columns name db db' := by
  refine ⟨fun hsome => h ▸ hsome, ?_⟩
  rw [Database.rows, Database.rows, h]
  exact .refl columns _

/-- Rows that are replaced one by one, with their values in the columns. -/
theorem carries_setTable_map {table : Table T C V} (hget : db.table? name = some table)
    {new : Table T C V} {f : Row C V → Row C V} (hrows : new.rows = table.rows.map f)
    (hf : ∀ row, ∀ c ∈ columns, f row c = row c) :
    Carries columns name db (db.setTable name new) := by
  constructor
  · intro _
    rw [Database.table?_setTable, if_pos rfl]
    rfl
  · rw [Database.rows_setTable, if_pos rfl, Database.rows_of_table? hget, hrows]
    exact List.forall₂_map_right_iff.mpr (List.forall₂_same.mpr fun row _ => hf row)

/-- A table that is set among others. -/
theorem carries_setTable_of_ne {table : Table T C V} (hne : name ≠ other) :
    Carries columns name db (db.setTable other table) := by
  refine carries_of_table?_eq ?_
  rw [Database.table?_setTable, if_neg hne]

/-- The same rows, where the table may have other constraints. -/
theorem carries_of_map {f : Table T C V → Table T C V} (hf : ∀ table, (f table).rows = table.rows)
    (h : db'.table? name = (db.table? name).map f) : Carries columns name db db' := by
  constructor
  · rw [h, Option.isSome_map]
    exact id
  · have hrows : db'.rows name = db.rows name := by
      rw [Database.rows, Database.rows, h, Option.map_map]
      have hcomp : Table.rows ∘ f = (Table.rows : Table T C V → _) := funext hf
      rw [hcomp]
    rw [hrows]
    exact .refl columns _

/-- No foreign key refers to the table. -/
def Database.Unreferenced (name : T) (db : Database T C I V) : Prop :=
  ∀ item ∈ db.tables, ∀ foreignKey ∈ item.2.foreignKeys, foreignKey.parent ≠ name

theorem Database.Unreferenced.setTable {table : Table T C V}
    (h : db.Unreferenced name)
    (htable : ∀ foreignKey ∈ table.foreignKeys, foreignKey.parent ≠ name) :
    (db.setTable other table).Unreferenced name := by
  have hitems := @forall_dictSet T (Table T C V) _ other (fun _ => table) db.tables
    (fun _ table => ∀ foreignKey ∈ table.foreignKeys, foreignKey.parent ≠ name)
    (fun _ table => ∀ foreignKey ∈ table.foreignKeys, foreignKey.parent ≠ name)
    h htable (fun _ _ => htable) (fun _ _ h => h)
  exact hitems

theorem Database.Unreferenced.of_table? {table : Table T C V}
    (h : db.Unreferenced name) (hget : db.table? other = some table) :
    ∀ foreignKey ∈ table.foreignKeys, foreignKey.parent ≠ name :=
  h (other, table) (mem_of_dictGet? hget)

end Carries

/-! ## Constraints -/

section Statements

variable [DecidableEq C] [DecidableEq I] [DecidableEq V]

/-- The values of a key; a key that has a NULL is none. -/
def Row.key (row : Row C V) (columns : List C) : Option (List V) := columns.mapM row

/-- What the statements raise. -/
inductive Failure where
  | noSuchTable
  | tableExists
  | noSuchColumn
  | duplicateColumn
  | constraintFailed
  /-- The disk, a lock, or another failure from outside. -/
  | unavailable
deriving DecidableEq, Repr

namespace Database

variable (db : Database T C I V)

/-- The unique keys of a table, with those of its indexes. -/
def uniqueKeys (name : T) : List (List C) :=
  ((db.table? name).map Table.unique).getD [] ++
    (db.indexes.filter fun index => index.table = name ∧ index.unique).map Index.columns

/-- Every row has no key or that of a row of the parent, where it is unique. -/
def satisfies (foreignKey : ForeignKey T C) (rows : List (Row C V)) : Bool :=
  decide (foreignKey.parentColumns ∈ db.uniqueKeys foreignKey.parent) &&
    rows.all fun row => (row.key foreignKey.columns).all fun key =>
      decide (key ∈ (db.rows foreignKey.parent).filterMap (Row.key · foreignKey.parentColumns))

/-- The rows that a statement has written in some columns of a table are allowed. -/
def admits (name : T) (written : List C) (rows : List (Row C V)) : Bool :=
  match db.table? name with
  | none => false
  | some table =>
    (table.columns.all fun column => decide (column.name ∉ written) || rows.all fun row =>
      (! column.notNull || (row column.name).isSome) && (row column.name).all column.check) &&
    ((db.uniqueKeys name).all fun key => decide (∀ c ∈ key, c ∉ written) ||
      decide (table.rows.filterMap (Row.key · key)).Nodup) &&
    table.foreignKeys.all fun foreignKey =>
      decide (∀ c ∈ foreignKey.columns, c ∉ written) || db.satisfies foreignKey rows

/-- The foreign keys to columns of a table that were written are satisfied. -/
def admitsReferences (name : T) (written : List C) : Bool :=
  db.tables.all fun item => item.2.foreignKeys.all fun foreignKey =>
    decide (foreignKey.parent ≠ name) ||
      decide (∀ c ∈ foreignKey.parentColumns, c ∉ written) ||
      db.satisfies foreignKey item.2.rows

/-- A row that refers to one of the rows that were removed. -/
def Orphaned (removed : List (T × Row C V)) (table : Table T C V) (row : Row C V) : Prop :=
  ∃ foreignKey ∈ table.foreignKeys, ∃ item ∈ removed, item.1 = foreignKey.parent ∧
    ∃ key ∈ row.key foreignKey.columns, item.2.key foreignKey.parentColumns = some key

instance (removed : List (T × Row C V)) (table : Table T C V) (row : Row C V) :
    Decidable (Orphaned removed table row) := by
  unfold Orphaned
  infer_instance

/-- The rows that refer to the removed ones are removed, and those that refer to them. -/
def cascade : Nat → List (T × Row C V) → List (T × Table T C V) → List (T × Table T C V)
  | 0, _, tables => tables
  | fuel + 1, removed, tables =>
    let orphans := tables.flatMap fun item =>
      (item.2.rows.filter (Orphaned removed item.2 ·)).map fun row => (item.1, row)
    if orphans.isEmpty then tables
    else cascade fuel orphans (tables.map fun item =>
      (item.1, { item.2 with rows := item.2.rows.filter (¬ Orphaned removed item.2 ·) }))

end Database

/-! ## Statements -/

inductive Statement (T C I V : Type) where
  /-- `CREATE TABLE`, perhaps `IF NOT EXISTS`. -/
  | createTable (name : T) (table : Table T C V) (ifNotExists : Bool)
  /-- `CREATE INDEX IF NOT EXISTS`. -/
  | createIndex (index : Index I T C)
  /-- `ALTER TABLE ... ADD COLUMN`. -/
  | addColumn (name : T) (column : Column C V)
  /-- `UPDATE ... SET ... WHERE`, with the tables that the subqueries read. -/
  | update (name : T) (reads : List T) (written : List C)
      (assign : Database T C I V → Row C V → Row C V)
      (selects : Database T C I V → Row C V → Bool)
  /-- `INSERT INTO target(columns) SELECT columns FROM source`. -/
  | insertSelect (target : T) (columns : List C) (source : T)
  | dropTable (name : T)
  /-- `ALTER TABLE ... RENAME TO`. -/
  | renameTable (name newName : T)
  /-- `PRAGMA user_version = ...`. -/
  | setVersion (version : Nat)

/-- A row with other values in the columns that are written. -/
def Row.assign (row : Row C V) (written : List C) (values : Row C V) : Row C V :=
  fun c => if c ∈ written then values c else row c

/-- A new row: the columns that are given, and the defaults of the others. -/
def Table.newRow (table : Table T C V) (columns : List C) (values : Row C V) : Row C V :=
  fun c => if c ∈ columns then values c
    else (table.columns.find? (·.name = c)).bind Column.default

/-- Foreign keys follow a table that is renamed. -/
def Table.renameParent (name newName : T) (table : Table T C V) : Table T C V :=
  { table with foreignKeys := table.foreignKeys.map fun foreignKey =>
      if foreignKey.parent = name then { foreignKey with parent := newName } else foreignKey }

/-- A statement that succeeds, or what it raises. -/
def execute (db : Database T C I V) :
    Statement T C I V → Except Failure (Database T C I V)
  | .createTable name table ifNotExists =>
    match db.table? name with
    | some _ => if ifNotExists then .ok db else .error .tableExists
    | none => .ok (db.setTable name { table with rows := [] })
  | .createIndex index =>
    if index.name ∈ db.indexes.map Index.name then .ok db
    else
      match db.table? index.table with
      | none => .error .noSuchTable
      | some table =>
        if ¬ index.columns ⊆ table.columns.map Column.name then .error .noSuchColumn
        else if index.unique ∧ ¬ (table.rows.filterMap (Row.key · index.columns)).Nodup then
          .error .constraintFailed
        else .ok { db with indexes := db.indexes ++ [index] }
  | .addColumn name column =>
    match db.table? name with
    | none => .error .noSuchTable
    | some table =>
      if column.name ∈ table.columns.map Column.name then .error .duplicateColumn
      else if column.notNull ∧ column.default = none ∨
          table.rows ≠ [] ∧ ¬ column.default.all column.check then .error .constraintFailed
      else .ok (db.setTable name { table with
        columns := table.columns ++ [column]
        rows := table.rows.map (Row.assign · [column.name] fun _ => column.default) })
  | .update name reads written assign selects =>
    match db.table? name with
    | none => .error .noSuchTable
    | some table =>
      if ∃ other ∈ reads, db.table? other = none then .error .noSuchTable
      else if ¬ written ⊆ table.columns.map Column.name then .error .noSuchColumn
      else
        let db' := db.setTable name { table with
          rows := table.rows.map fun row =>
            if selects db row then row.assign written (assign db row) else row }
        let rows := (table.rows.filter (selects db)).map fun row =>
          row.assign written (assign db row)
        if db'.admits name written rows ∧ db'.admitsReferences name written then .ok db'
        else .error .constraintFailed
  | .insertSelect target columns source =>
    match db.table? target, db.table? source with
    | some table, some from_ =>
      if ¬ columns ⊆ table.columns.map Column.name ∨
          ¬ columns ⊆ from_.columns.map Column.name then .error .noSuchColumn
      else
        let rows := from_.rows.map (table.newRow columns)
        let db' := db.setTable target { table with rows := table.rows ++ rows }
        if db'.admits target (table.columns.map Column.name) rows then .ok db'
        else .error .constraintFailed
    | _, _ => .error .noSuchTable
  | .dropTable name =>
    match db.table? name with
    | none => .error .noSuchTable
    | some table =>
      let rest := db.tables.filter (·.1 ≠ name)
      let fuel := (rest.map fun item => item.2.rows.length).sum
      .ok { db with
        tables := Database.cascade fuel (table.rows.map fun row => (name, row)) rest
        indexes := db.indexes.filter (·.table ≠ name) }
  | .renameTable name newName =>
    match db.table? name, db.table? newName with
    | some table, none =>
      let rest := (db.tables.filter (·.1 ≠ name)).map fun item =>
        (item.1, item.2.renameParent name newName)
      .ok { db with
        tables := dictSet newName (fun _ => table.renameParent name newName) rest
        indexes := db.indexes.map fun index =>
          if index.table = name then { index with table := newName } else index }
    | none, _ => .error .noSuchTable
    | some _, some _ => .error .tableExists
  | .setVersion version => .ok { db with version := version }

/-- The statements one after the other, where so many have been executed before; the
database may be unavailable to any of them. -/
def runStatements (unavailable : Nat → Bool) :
    Nat → List (Statement T C I V) → Database T C I V → Except Failure (Database T C I V)
  | _, [], db => .ok db
  | executed, statement :: statements, db =>
    if unavailable executed then .error .unavailable
    else (execute db statement).bind (runStatements unavailable (executed + 1) statements)

/-! ## Statements that keep a table -/

/-- A statement that makes tables or adds to the columns and rows of others, and writes only
other columns of this one. -/
def Statement.Keeps (columns : List C) (name : T) : Statement T C I V → Prop
  | .createTable _ _ _ => True
  | .createIndex _ => True
  | .addColumn other column => other = name → column.name ∉ columns
  | .update other _ written _ _ => other = name → ∀ c ∈ columns, c ∉ written
  | .insertSelect target _ _ => target ≠ name
  | .dropTable _ => False
  | .renameTable other newName => name ≠ other ∧ name ≠ newName
  | .setVersion _ => True

section Keeps

variable {db db' : Database T C I V} {name : T} {columns : List C}

/-- The tables after one has been renamed. -/
theorem table?_of_renameTable {other newName : T}
    (h : execute db (.renameTable other newName) = .ok db') :
    ∃ table, db.table? other = some table ∧ db.table? newName = none ∧ ∀ name,
      db'.table? name = if name = newName then some (table.renameParent other newName)
        else if name = other then none
        else (db.table? name).map (Table.renameParent other newName) := by
  rw [execute] at h
  cases hold : db.table? other with
  | none =>
    rw [hold] at h
    cases h
  | some table =>
    cases hnew : db.table? newName with
    | some taken =>
      rw [hold, hnew] at h
      cases h
    | none =>
      rw [hold, hnew] at h
      cases h
      refine ⟨table, rfl, rfl, fun name => ?_⟩
      rw [Database.table?, dictGet?_dictSet, dictGet?_map, dictGet?_filter_ne]
      split_ifs <;> rfl

theorem execute_carries {statement : Statement T C I V} (hkeeps : statement.Keeps columns name)
    (h : execute db statement = .ok db') : Carries columns name db db' := by
  -- by the kind of the statement: each either leaves `name` alone or maps its rows one to one
  cases statement with
  | createTable other table ifNotExists =>
    rw [execute] at h
    -- a table that exists is kept by `if not exists`, and refused without
    cases hget : db.table? other with
    | some old =>
      rw [hget] at h
      split_ifs at h
      cases h
      exact .refl columns name db
    | none =>
      rw [hget] at h
      cases h
      by_cases hname : name = other
      · -- a table without rows takes the place of none
        subst hname
        refine ⟨fun hsome => ?_, ?_⟩
        · rw [hget] at hsome
          cases hsome
        · rw [Database.rows_of_none hget, Database.rows_setTable, if_pos rfl]
          exact .nil
      · exact carries_setTable_of_ne hname
  | createIndex index =>
    rw [execute] at h
    -- an index is kept beside the tables
    have hsame : db'.tables = db.tables := by
      split_ifs at h with hexists
      · cases h
        rfl
      · split at h
        · cases h
        · split_ifs at h
          cases h
          rfl
    refine carries_of_table?_eq ?_
    rw [Database.table?, hsame]
    rfl
  | addColumn other column =>
    -- the rows get one more column, and `hkeeps` says it is not among those carried
    rw [execute] at h
    cases hget : db.table? other with
    | none =>
      rw [hget] at h
      cases h
    | some table =>
      rw [hget] at h
      simp only at h
      split_ifs at h
      cases h
      by_cases hname : name = other
      · subst hname
        refine carries_setTable_map hget rfl fun row c hc => ?_
        rw [Row.assign, if_neg]
        intro hmem
        rw [List.mem_singleton] at hmem
        exact hkeeps rfl (hmem ▸ hc)
      · exact carries_setTable_of_ne hname
  | update other reads written assign selects =>
    rw [execute] at h
    cases hget : db.table? other with
    | none =>
      rw [hget] at h
      cases h
    | some table =>
      rw [hget] at h
      simp only at h
      split_ifs at h
      cases h
      by_cases hname : name = other
      · subst hname
        -- the columns that are written are not among those carried
        refine carries_setTable_map hget rfl fun row c hc => ?_
        split_ifs
        · rw [Row.assign, if_neg (hkeeps rfl c hc)]
        · rfl
      · exact carries_setTable_of_ne hname
  | insertSelect target written source =>
    -- the rows go into another table
    rw [execute] at h
    split at h
    · simp only at h
      split_ifs at h
      cases h
      exact carries_setTable_of_ne (Ne.symm hkeeps)
    · cases h
  | dropTable other => exact hkeeps.elim
  | renameTable other newName =>
    -- renaming `other` changes the table of `name` in its foreign keys only
    obtain ⟨table, -, -, htables⟩ := table?_of_renameTable h
    refine carries_of_map (f := Table.renameParent other newName) (fun _ => rfl) ?_
    rw [htables, if_neg hkeeps.2, if_neg hkeeps.1]
  | setVersion version =>
    cases h
    exact carries_of_table?_eq rfl

/-- A run of such statements. -/
theorem runStatements_carries {unavailable : Nat → Bool} {statements : List (Statement T C I V)}
    (hkeeps : ∀ statement ∈ statements, statement.Keeps columns name) {executed : Nat}
    (h : runStatements unavailable executed statements db = .ok db') :
    Carries columns name db db' := by
  induction statements generalizing executed db with
  | nil =>
    cases h
    exact .refl columns name _
  | cons statement statements ih =>
    rw [runStatements] at h
    split_ifs at h
    cases hfirst : execute db statement with
    | error e =>
      rw [hfirst] at h
      cases h
    | ok next =>
      rw [hfirst] at h
      have hstep := execute_carries (hkeeps statement List.mem_cons_self) hfirst
      exact hstep.trans (ih (fun s hs => hkeeps s (List.mem_cons_of_mem _ hs)) h)

theorem runStatements_append {unavailable : Nat → Bool} {first second : List (Statement T C I V)}
    {executed : Nat} (h : runStatements unavailable executed (first ++ second) db = .ok db') :
    ∃ middle, runStatements unavailable executed first db = .ok middle ∧
      runStatements unavailable (executed + first.length) second middle = .ok db' := by
  induction first generalizing executed db with
  | nil => exact ⟨db, rfl, h⟩
  | cons statement first ih =>
    rw [List.cons_append, runStatements] at h
    split_ifs at h with hfails
    cases hfirst : execute db statement with
    | error e =>
      rw [hfirst] at h
      cases h
    | ok next =>
      rw [hfirst] at h
      obtain ⟨middle, hmiddle, hrest⟩ := ih h
      refine ⟨middle, ?_, ?_⟩
      · rw [runStatements, if_neg hfails, hfirst]
        exact hmiddle
      · rw [List.length_cons, Nat.add_right_comm, ← Nat.add_assoc] at *
        exact hrest

theorem runStatements_cons {unavailable : Nat → Bool} {statement : Statement T C I V}
    {statements : List (Statement T C I V)} {executed : Nat}
    (h : runStatements unavailable executed (statement :: statements) db = .ok db') :
    ∃ next, execute db statement = .ok next ∧
      runStatements unavailable (executed + 1) statements next = .ok db' := by
  rw [runStatements] at h
  split_ifs at h
  cases hfirst : execute db statement with
  | error e =>
    rw [hfirst] at h
    cases h
  | ok next =>
    rw [hfirst] at h
    exact ⟨next, rfl, h⟩

/-! ## A table that nothing refers to -/

omit [DecidableEq C] in
/-- Nothing refers to the rows that were removed. -/
theorem cascade_eq_self {fuel : Nat} {removed : List (T × Row C V)}
    {tables : List (T × Table T C V)} (hremoved : ∀ item ∈ removed, item.1 = name)
    (htables : ∀ item ∈ tables, ∀ foreignKey ∈ item.2.foreignKeys, foreignKey.parent ≠ name) :
    Database.cascade fuel removed tables = tables := by
  cases fuel with
  | zero => rfl
  | succ fuel =>
    have hnone : (tables.flatMap fun item =>
        (item.2.rows.filter (Database.Orphaned removed item.2 ·)).map fun row =>
          (item.1, row)) = [] := by
      rw [List.flatMap_eq_nil_iff]
      intro item hitem
      rw [List.map_eq_nil_iff, List.filter_eq_nil_iff]
      intro row _ horphaned
      obtain ⟨foreignKey, hkey, parent, hparent, heq, -⟩ := of_decide_eq_true horphaned
      exact htables item hitem foreignKey hkey (heq.symm.trans (hremoved parent hparent))
    rw [Database.cascade]
    simp only [hnone]
    rfl

/-- A table that nothing refers to is dropped alone. -/
theorem table?_of_dropTable {other : T} (hfree : db.Unreferenced other)
    (h : execute db (.dropTable other) = .ok db') (name : T) :
    db'.table? name = if name = other then none else db.table? name := by
  rw [execute] at h
  cases hget : db.table? other with
  | none =>
    rw [hget] at h
    cases h
  | some table =>
    rw [hget] at h
    cases h
    have hrest : ∀ item ∈ db.tables.filter (·.1 ≠ other), ∀ foreignKey ∈ item.2.foreignKeys,
        foreignKey.parent ≠ other := fun item hitem => hfree item (List.mem_filter.mp hitem).1
    have hremoved : ∀ item ∈ table.rows.map fun row => (other, row), item.1 = other := by
      intro item hitem
      obtain ⟨row, -, rfl⟩ := List.mem_map.mp hitem
      rfl
    rw [Database.table?, cascade_eq_self hremoved hrest, dictGet?_filter_ne]
    rfl

/-- A statement that makes no foreign key to the table, and drops and renames none. -/
def Statement.NeverRefers (name : T) : Statement T C I V → Prop
  | .createTable _ table _ => ∀ foreignKey ∈ table.foreignKeys, foreignKey.parent ≠ name
  | .dropTable _ | .renameTable _ _ => False
  | _ => True

theorem execute_unreferenced {statement : Statement T C I V} (hnever : statement.NeverRefers name)
    (hfree : db.Unreferenced name) (h : execute db statement = .ok db') :
    db'.Unreferenced name := by
  -- only a statement with foreign keys of its own could bring a reference to `name`
  cases statement with
  | createTable other table ifNotExists =>
    rw [execute] at h
    split at h
    · split_ifs at h
      cases h
      exact hfree
    · cases h
      -- the new table does not refer to `name`
      exact hfree.setTable hnever
  | createIndex index =>
    rw [execute] at h
    split_ifs at h
    · cases h
      exact hfree
    · split at h
      · cases h
      · split_ifs at h
        cases h
        exact hfree
  | addColumn other column =>
    rw [execute] at h
    cases hget : db.table? other with
    | none =>
      rw [hget] at h
      cases h
    | some table =>
      rw [hget] at h
      simp only at h
      split_ifs at h
      cases h
      -- the table keeps its foreign keys, and only gets a column
      have hkeys := hfree.of_table? hget
      exact hfree.setTable hkeys
  | update other reads written assign selects =>
    rw [execute] at h
    cases hget : db.table? other with
    | none =>
      rw [hget] at h
      cases h
    | some table =>
      rw [hget] at h
      simp only at h
      split_ifs at h
      cases h
      have hkeys := hfree.of_table? hget
      exact hfree.setTable hkeys
  | insertSelect target written source =>
    -- the target keeps its foreign keys, and only gets rows
    rw [execute] at h
    cases hget : db.table? target with
    | none =>
      rw [hget] at h
      cases h
    | some table =>
      have hkeys := hfree.of_table? hget
      rw [hget] at h
      split at h
      · rename_i heq _
        cases heq
        simp only at h
        split_ifs at h
        cases h
        exact hfree.setTable hkeys
      · cases h
  -- both are excluded by `hnever`
  | dropTable other => exact hnever.elim
  | renameTable other newName => exact hnever.elim
  | setVersion version =>
    cases h
    exact hfree

theorem runStatements_unreferenced {unavailable : Nat → Bool}
    {statements : List (Statement T C I V)}
    (hnever : ∀ statement ∈ statements, statement.NeverRefers name) {executed : Nat}
    (hfree : db.Unreferenced name)
    (h : runStatements unavailable executed statements db = .ok db') : db'.Unreferenced name := by
  induction statements generalizing executed db with
  | nil =>
    cases h
    exact hfree
  | cons statement statements ih =>
    obtain ⟨next, hfirst, hrest⟩ := runStatements_cons h
    have hnext := execute_unreferenced (hnever statement List.mem_cons_self) hfree hfirst
    exact ih (fun s hs => hnever s (List.mem_cons_of_mem _ hs)) hnext hrest

/-- A table that is copied, dropped and replaced by its copy has the rows it had, with their
values in the columns that are copied. -/
theorem rebuild_carries {unavailable : Nat → Bool} {executed : Nat} {copy : T}
    {table : Table T C V} {copied : List C} (hfree : db.Unreferenced name)
    (htable : ∀ foreignKey ∈ table.foreignKeys, foreignKey.parent ≠ name) (hcopy : copy ≠ name)
    (h : runStatements unavailable executed [.createTable copy table false,
      .insertSelect copy copied name, .dropTable name, .renameTable copy name] db = .ok db')
    {other : T} (hother : other ≠ copy) (hcolumns : other = name → columns ⊆ copied) :
    Carries columns other db db' := by
  obtain ⟨db₁, hcreate, h⟩ := runStatements_cons h
  obtain ⟨db₂, hinsert, h⟩ := runStatements_cons h
  obtain ⟨db₃, hdrop, h⟩ := runStatements_cons h
  obtain ⟨db₄, hrename, h⟩ := runStatements_cons h
  cases h
  -- the copy is new, and has no rows yet
  have hcreated : db₁ = db.setTable copy { table with rows := [] } := by
    rw [execute] at hcreate
    split at hcreate
    · cases hcreate
    · cases hcreate
      rfl
  have hempty : db₁.table? copy = some { table with rows := [] } := by
    rw [hcreated, Database.table?_setTable, if_pos rfl]
  have hname : db₁.table? name = db.table? name := by
    rw [hcreated, Database.table?_setTable, if_neg (Ne.symm hcopy)]
  -- it gets the rows of the table
  obtain ⟨source, hsource, hcopied⟩ : ∃ source, db.table? name = some source ∧
      db₂ = db₁.setTable copy { table with rows := source.rows.map (table.newRow copied) } := by
    rw [execute, hempty, hname] at hinsert
    cases hget : db.table? name with
    | none =>
      rw [hget] at hinsert
      cases hinsert
    | some source =>
      rw [hget] at hinsert
      simp only at hinsert
      split_ifs at hinsert
      cases hinsert
      exact ⟨source, rfl, rfl⟩
  -- nothing refers to the table, so dropping it deletes no row elsewhere
  have hfree₁ : db₁.Unreferenced name := by
    rw [hcreated]
    exact hfree.setTable htable
  have hfree₂ : db₂.Unreferenced name := by
    rw [hcopied]
    exact hfree₁.setTable htable
  have htables₃ := table?_of_dropTable hfree₂ hdrop
  obtain ⟨renamed, hrenamed, -, htables₄⟩ := table?_of_renameTable hrename
  have hcopy₂ : db₂.table? copy =
      some { table with rows := source.rows.map (table.newRow copied) } := by
    rw [hcopied, Database.table?_setTable, if_pos rfl]
  rw [htables₃, if_neg hcopy, hcopy₂] at hrenamed
  cases hrenamed
  -- the table that is rebuilt has the copied rows, every other one its own
  by_cases heq : other = name
  · subst heq
    have hget : db'.table? other = some (Table.renameParent copy other
        { table with rows := source.rows.map (table.newRow copied) }) := by
      rw [htables₄, if_pos rfl]
    constructor
    · intro _
      rw [hget]
      rfl
    -- row by row: a column that is copied has the value it had
    · rw [Database.rows_of_table? hsource, Database.rows_of_table? hget]
      refine List.forall₂_map_right_iff.mpr (List.forall₂_same.mpr fun row _ c hc => ?_)
      rw [Table.newRow, if_pos (hcolumns rfl hc)]
  · refine carries_of_map (f := Table.renameParent copy name) (fun _ => rfl) ?_
    rw [htables₄, if_neg heq, if_neg hother, htables₃, if_neg heq, hcopied,
      Database.table?_setTable, if_neg hother, hcreated, Database.table?_setTable, if_neg hother]

/-! ## Rows that are written -/

/-- A column that has been added has its default in every row. -/
theorem default_of_addColumn {column : Column C V}
    (h : execute db (.addColumn name column) = .ok db') :
    ∀ row ∈ db'.rows name, row column.name = column.default := by
  rw [execute] at h
  cases hget : db.table? name with
  | none =>
    rw [hget] at h
    cases h
  | some table =>
    rw [hget] at h
    simp only at h
    split_ifs at h
    cases h
    intro row hrow
    rw [Database.rows_setTable, if_pos rfl] at hrow
    obtain ⟨old, -, rfl⟩ := List.mem_map.mp hrow
    rw [Row.assign, if_pos (List.mem_singleton_self _)]

/-- What an update makes of the rows; the tables it reads are there. -/
theorem rows_of_update {reads : List T} {written : List C}
    {assign : Database T C I V → Row C V → Row C V} {selects : Database T C I V → Row C V → Bool}
    (h : execute db (.update name reads written assign selects) = .ok db') :
    db'.rows name = (db.rows name).map fun row =>
      if selects db row then row.assign written (assign db row) else row := by
  rw [execute] at h
  cases hget : db.table? name with
  | none =>
    rw [hget] at h
    cases h
  | some table =>
    rw [hget] at h
    simp only at h
    split_ifs at h
    cases h
    rw [Database.rows_setTable, if_pos rfl, Database.rows_of_table? hget]

end Keeps

end Statements

end Ddl
