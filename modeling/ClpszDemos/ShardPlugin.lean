import Mathlib.Tactic
import ClpszDemos.UidSharding
import ClpszDemos.SqlParsers

/-!
# The shard plugin

`ShardPlugin.intercept` parses the SQL text of a statement, collects its
tables and gives each of them the name and schema of the shard that the
parameters name.  The tree itself keeps its references; only the `Table`
objects behind them change, and the text printed from the tree with them.
-/

namespace ClpszDemos
namespace Sharding

open JavaText

/-! ## Parameters -/

/-- `PluginCommon.SINGLE_PARAM_CLASSES`. -/
def singleParamClasses : List JavaClass :=
  [.primitive .int, .boxed .int, .primitive .long, .boxed .long,
    .primitive .short, .boxed .short, .primitive .byte, .boxed .byte,
    .primitive .float, .boxed .float, .primitive .double, .boxed .double,
    .primitive .boolean, .boxed .boolean, .primitive .char, .boxed .char,
    .string]

/-- A property of a bean and what its getter gives, when it has one. -/
structure PropertyDescriptor where
  name : JString
  readMethod : Option (Except Thrown (Option JavaObject))

/-- A parameter object: a value, which may be a map, and what introspection
tells of its class. -/
structure ParameterObject extends JavaObject where
  asMap : Option ParamsMap
  propertyDescriptors : Except Thrown (Option (List PropertyDescriptor))

/-- The mappings are kept as the names of their properties. -/
structure BoundSql where
  sql : JString
  parameterObject : Option ParameterObject
  parameterMappings : Option (List JString)

def putProperties :
    List PropertyDescriptor → ParamsMap → Except Thrown ParamsMap
  | [], params => .ok params
  | propDesc :: rest, params =>
      match propDesc.readMethod with
      | none => .error .nullPointer
      | some invoke => do
          let value ← invoke
          putProperties rest (params.put propDesc.name value)

def paresParams (boundSql : BoundSql) : Except Thrown ParamsMap :=
  match boundSql.parameterObject with
  | none => .error .nullPointer
  | some parameterObject =>
      if parameterObject.cls ∈ singleParamClasses then
        match boundSql.parameterMappings with
        | some (property :: _) =>
            .ok (ParamsMap.empty.put property
              (some parameterObject.toJavaObject))
        | some [] => .ok ParamsMap.empty
        | none => .ok ParamsMap.empty
      else
        match parameterObject.asMap with
        | some params => .ok params
        | none => do
            match ← parameterObject.propertyDescriptors with
            | some propDescs => putProperties propDescs ParamsMap.empty
            | none => return ParamsMap.empty

/-! ## Statements -/

/-- What a `Table` object holds. -/
structure TableData where
  schemaName : Option JString
  name : JString
  deriving DecidableEq

/-- What the SQL parser gives: a tree and its `Table` objects.  The parser
makes a new object for each place that names a table. -/
structure ParsedStatement (τ : Type) where
  statement : Statement τ
  table : τ → TableData
  fresh : ∀ r, (statement.tables r).Nodup

variable {τ : Type}

/-- `createParser`, for a parser that is null on a `JSQLParserException`. -/
def createParser
    (parse : JString → Option (ParsedStatement τ))
    (originalSql : JString) : Except Thrown (ParsedStatement τ × List τ) :=
  match parse originalSql with
  | none => .error (.sql (java "SQL Parse Failed"))
  | some parsed => do
      let tables ← parsed.statement.getTables
      return (parsed, tables)

/-! ## `intercept` -/

/-- A `HashMap<String, String>`: what a key is mapped to, null included. -/
abbrev Table2DB := JString → Option (Option JString)

/-- The text of a reference in a concatenation. -/
def concatText : Option JString → JString
  | none => java "null"
  | some s => s

def listGet (list : List JString) (index : Nat) : Except Thrown JString :=
  match list[index]? with
  | none => .error (.thrown (java "java.lang.IndexOutOfBoundsException"))
  | some s => .ok s

variable [DecidableEq τ]

/-- The body of the loop over the tables. -/
def shardTable
    (table2DB : Table2DB)
    (boundSql : BoundSql)
    (store : τ → TableData)
    (table : τ) : Except Thrown (τ → TableData) := do
  let logicTblName := (store table).name
  let logicDBName := (table2DB logicTblName).join
  let params ← paresParams boundSql
  let shardingCondition ← parse params
  let set ← listGet shardingCondition 0
  let db ← listGet shardingCondition 1
  let tbl ← listGet shardingCondition 2
  let realDBName := concatText logicDBName ++ java "_" ++ set ++ java "_" ++
    db ++ java "_db"
  let realTblName := logicTblName ++ java "_" ++ tbl
  return Function.update store table
    { schemaName := some realDBName, name := realTblName }

def shardTables
    (table2DB : Table2DB)
    (boundSql : BoundSql) :
    List τ → (τ → TableData) → Except Thrown (τ → TableData)
  | [], store => .ok store
  | table :: rest, store => do
      let store ← shardTable table2DB boundSql store table
      shardTables table2DB boundSql rest store

/-- The statement whose text goes to the database. -/
def intercept
    (parse : JString → Option (ParsedStatement τ))
    (table2DB : Table2DB)
    (boundSql : BoundSql) : Except Thrown (ParsedStatement τ) := do
  let (parsed, tables) ← createParser parse boundSql.sql
  let store ← shardTables table2DB boundSql tables parsed.table
  return { parsed with table := store }

/-! ## The tables that are found -/

omit [DecidableEq τ] in
theorem createParser_eq_ok
    {parseSql : JString → Option (ParsedStatement τ)}
    {sql : JString}
    {parsed : ParsedStatement τ}
    {tables : List τ}
    (haccepts : createParser parseSql sql = .ok (parsed, tables)) :
    parsed.statement.getTables = .ok tables := by
  unfold createParser at haccepts
  cases hparse : parseSql sql with
  | none => simp [hparse] at haccepts
  | some result =>
      rw [hparse] at haccepts
      simp only at haccepts
      obtain ⟨found, hfound, hresult⟩ := except_bind_eq_ok haccepts
      simp only [pure, Except.pure, Except.ok.injEq, Prod.mk.injEq] at hresult
      rw [← hresult.1, ← hresult.2]
      exact hfound

/-- Every reference of a statement is found once, or hidden once. -/
theorem Statement.count_getTables
    (r : References)
    (t : τ)
    {statement : Statement τ}
    {tables : List τ}
    (hfound : statement.getTables = .ok tables) :
    tables.count t + (statement.hidden r).count t =
      (statement.tables r).count t := by
  cases statement with
  | select statement =>
      have hvisit := statement.selectBody.count_visit r t hfound
      simp only [List.count_nil] at hvisit
      simp only [Statement.hidden, Statement.tables, Select.tables,
        List.count_append]
      omega
  | update statement =>
      simp only [Statement.getTables, List.nil_append,
        Except.ok.injEq] at hfound
      simp [Statement.hidden, Statement.tables, ← hfound]
  | insert statement =>
      simp only [Statement.getTables, List.nil_append,
        Except.ok.injEq] at hfound
      simp only [Statement.hidden, Statement.tables, ← hfound,
        List.count_cons, List.count_nil]
      omega
  | delete statement =>
      simp only [Statement.getTables, List.nil_append,
        Except.ok.injEq] at hfound
      simp only [Statement.hidden, Statement.tables, ← hfound,
        List.count_cons, List.count_nil]
      omega
  | other className => simp [Statement.getTables] at hfound

end Sharding
end ClpszDemos
