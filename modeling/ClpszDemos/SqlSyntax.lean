import Mathlib.Tactic
import ClpszDemos.JavaText

/-!
# SQL statements

The statement tree of the SQL parser, version 0.9.6.  It names tables by
references to mutable `Table` objects: `τ` is the type of these references.
Kept is every place that can hold an expression, a select or a table; the
texts between them, such as aliases, join types or limits without expressions,
are left out.
-/

namespace ClpszDemos
namespace Sharding

/-! ## The kinds of expressions -/

/-- Expressions without parts. -/
inductive LeafKind
  | nullValue
  | jdbcParameter
  | jdbcNamedParameter
  | doubleValue
  | longValue
  | hexValue
  | dateValue
  | timeValue
  | timestampValue
  | stringValue
  | userVariable
  | numericBind
  | oracleHint
  | timeKeyExpression
  | dateTimeLiteralExpression
  deriving DecidableEq

/-- The subclasses of `BinaryExpression`. -/
inductive BinaryKind
  | addition
  | andExpression
  | bitwiseAnd
  | bitwiseOr
  | bitwiseXor
  | concat
  | division
  | equalsTo
  | greaterThan
  | greaterThanEquals
  | likeExpression
  | matches
  | minorThan
  | minorThanEquals
  | modulo
  | multiplication
  | notEqualsTo
  | orExpression
  | regExpMatchOperator
  | regExpMySQLOperator
  | subtraction
  deriving DecidableEq

/-- The other expressions with parts, which are kept as their operands. -/
inductive CompoundKind
  | analyticExpression
  | caseExpression
  | castExpression
  | extractExpression
  | function
  | intervalExpression
  | isNullExpression
  | jsonExpression
  | keepExpression
  | mySQLGroupConcat
  | oracleHierarchicalExpression
  | rowConstructor
  | signedExpression
  | whenClause
  | withinGroupExpression
  deriving DecidableEq

/-! ## The tree -/

mutual

inductive Expression (τ : Type)
  | leaf (kind : LeafKind) (text : JString)
  | column (table : Option τ) (columnName : JString)
  | binary (kind : BinaryKind) (left right : Expression τ)
  | between (left start stop : Expression τ)
  | parenthesis (expression : Expression τ)
  | inExpression (left : Option (Expression τ))
      (leftItemsList rightItemsList : Option (ItemsList τ))
  | existsExpression (right : Expression τ)
  | allComparison (subSelect : SubSelect τ)
  | anyComparison (subSelect : SubSelect τ)
  | subSelect (subSelect : SubSelect τ)
  | compound (kind : CompoundKind) (operands : List (Expression τ))

inductive ItemsList (τ : Type)
  | subSelect (subSelect : SubSelect τ)
  | expressionList (expressions : List (Expression τ))
  | multiExpressionList (exprList : List (List (Expression τ)))

inductive SubSelect (τ : Type)
  | mk (selectBody : SelectBody τ) (withItemsList : List (WithItem τ))
      (pivot : Option (Pivot τ))

inductive Pivot (τ : Type)
  | mk (items : List (Expression τ)) (inSelect : Option (SelectBody τ))

inductive FromItem (τ : Type)
  | table (table : τ) (pivot : Option (Pivot τ))
  | subSelect (subSelect : SubSelect τ)
  | subJoin (left : FromItem τ) (join : Join τ) (pivot : Option (Pivot τ))
  | lateralSubSelect (subSelect : SubSelect τ) (pivot : Option (Pivot τ))
  | valuesList (multiExpressionList : List (List (Expression τ)))
  | tableFunction (function : Expression τ)

inductive Join (τ : Type)
  | mk (rightItem : FromItem τ) (onExpression : Option (Expression τ))
      (usingColumns : List (Expression τ))

inductive SelectItem (τ : Type)
  | allColumns
  | allTableColumns (table : τ)
  | selectExpressionItem (expression : Expression τ)

inductive SelectBody (τ : Type)
  | plainSelect (distinctOn selectItems : List (SelectItem τ))
      (intoTables : List τ) (fromItem : Option (FromItem τ))
      (joins : List (Join τ)) (condition : Option (Expression τ))
      (oracleHierarchical : Option (Expression τ))
      (groupBy orderBy : List (Expression τ))
      (having : Option (Expression τ)) (forUpdateTable : Option τ)
      (limits : List (Expression τ))
  | setOperationList (selects : List (SelectBody τ))
      (orderBy limits : List (Expression τ))
  | withItem (item : WithItem τ)

inductive WithItem (τ : Type)
  | mk (withItemList : List (SelectItem τ)) (selectBody : SelectBody τ)

end

structure Select (τ : Type) where
  selectBody : SelectBody τ
  withItemsList : List (WithItem τ)

structure Update (τ : Type) where
  tables : List τ
  condition : Option (Expression τ)
  columns : List (Expression τ)
  expressions : List (Expression τ)
  fromItem : Option (FromItem τ)
  joins : List (Join τ)
  select : Option (Select τ)
  orderBy : List (Expression τ)
  limits : List (Expression τ)
  returning : List (SelectItem τ)

structure Insert (τ : Type) where
  table : τ
  columns : List (Expression τ)
  itemsList : Option (ItemsList τ)
  select : Option (Select τ)
  setColumns : List (Expression τ)
  setExpressions : List (Expression τ)
  duplicateUpdateColumns : List (Expression τ)
  duplicateUpdateExpressions : List (Expression τ)
  returning : List (SelectItem τ)

structure Delete (τ : Type) where
  table : τ
  tables : List τ
  joins : List (Join τ)
  condition : Option (Expression τ)
  orderBy : List (Expression τ)
  limits : List (Expression τ)

inductive Statement (τ : Type)
  | select (statement : Select τ)
  | update (statement : Update τ)
  | insert (statement : Insert τ)
  | delete (statement : Delete τ)
  | other (className : JString)

/-! ## The tables of a statement -/

/-- Which tables count as references of a statement: those it reads or writes,
or also those that only qualify a column or a lock. -/
inductive References
  | sources
  | qualified
  deriving DecidableEq

section Tables

variable {τ : Type}

def References.qualifier (r : References) (table : Option τ) : List τ :=
  match r with
  | .sources => []
  | .qualified => table.toList

mutual

def Expression.tables (r : References) : Expression τ → List τ
  | .leaf _ _ => []
  | .column table _ => r.qualifier table
  | .binary _ left right => left.tables r ++ right.tables r
  | .between left start stop =>
      left.tables r ++ start.tables r ++ stop.tables r
  | .parenthesis expression => expression.tables r
  | .inExpression left leftItemsList rightItemsList =>
      optionalTables r left ++ optionalItems r leftItemsList ++
        optionalItems r rightItemsList
  | .existsExpression right => right.tables r
  | .allComparison subSelect => subSelect.tables r
  | .anyComparison subSelect => subSelect.tables r
  | .subSelect subSelect => subSelect.tables r
  | .compound _ operands => expressionsTables r operands

def optionalTables (r : References) : Option (Expression τ) → List τ
  | none => []
  | some expression => expression.tables r

def expressionsTables (r : References) : List (Expression τ) → List τ
  | [] => []
  | expression :: rest => expression.tables r ++ expressionsTables r rest

def rowsTables (r : References) : List (List (Expression τ)) → List τ
  | [] => []
  | row :: rest => expressionsTables r row ++ rowsTables r rest

def ItemsList.tables (r : References) : ItemsList τ → List τ
  | .subSelect subSelect => subSelect.tables r
  | .expressionList expressions => expressionsTables r expressions
  | .multiExpressionList exprList => rowsTables r exprList

def optionalItems (r : References) : Option (ItemsList τ) → List τ
  | none => []
  | some itemsList => itemsList.tables r

def SubSelect.tables (r : References) : SubSelect τ → List τ
  | .mk selectBody withItemsList pivot =>
      selectBody.tables r ++ withTables r withItemsList ++ pivotTables r pivot

def Pivot.tables (r : References) : Pivot τ → List τ
  | .mk items inSelect => expressionsTables r items ++ optionalBody r inSelect

def pivotTables (r : References) : Option (Pivot τ) → List τ
  | none => []
  | some pivot => pivot.tables r

def FromItem.tables (r : References) : FromItem τ → List τ
  | .table table pivot => table :: pivotTables r pivot
  | .subSelect subSelect => subSelect.tables r
  | .subJoin left join pivot =>
      left.tables r ++ join.tables r ++ pivotTables r pivot
  | .lateralSubSelect subSelect pivot =>
      subSelect.tables r ++ pivotTables r pivot
  | .valuesList multiExpressionList => rowsTables r multiExpressionList
  | .tableFunction function => function.tables r

def optionalFrom (r : References) : Option (FromItem τ) → List τ
  | none => []
  | some fromItem => fromItem.tables r

def Join.tables (r : References) : Join τ → List τ
  | .mk rightItem onExpression usingColumns =>
      rightItem.tables r ++ optionalTables r onExpression ++
        expressionsTables r usingColumns

def joinsTables (r : References) : List (Join τ) → List τ
  | [] => []
  | join :: rest => join.tables r ++ joinsTables r rest

def SelectItem.tables (r : References) : SelectItem τ → List τ
  | .allColumns => []
  | .allTableColumns table => r.qualifier (some table)
  | .selectExpressionItem expression => expression.tables r

def itemsTables (r : References) : List (SelectItem τ) → List τ
  | [] => []
  | item :: rest => item.tables r ++ itemsTables r rest

def SelectBody.tables (r : References) : SelectBody τ → List τ
  | .plainSelect distinctOn selectItems intoTables fromItem joins condition
      oracleHierarchical groupBy orderBy having forUpdateTable limits =>
      itemsTables r distinctOn ++ itemsTables r selectItems ++ intoTables ++
        optionalFrom r fromItem ++ joinsTables r joins ++
        optionalTables r condition ++ optionalTables r oracleHierarchical ++
        expressionsTables r groupBy ++ expressionsTables r orderBy ++
        optionalTables r having ++ r.qualifier forUpdateTable ++
        expressionsTables r limits
  | .setOperationList selects orderBy limits =>
      selectsTables r selects ++ expressionsTables r orderBy ++
        expressionsTables r limits
  | .withItem item => item.tables r

def optionalBody (r : References) : Option (SelectBody τ) → List τ
  | none => []
  | some selectBody => selectBody.tables r

def selectsTables (r : References) : List (SelectBody τ) → List τ
  | [] => []
  | selectBody :: rest => selectBody.tables r ++ selectsTables r rest

def WithItem.tables (r : References) : WithItem τ → List τ
  | .mk withItemList selectBody =>
      itemsTables r withItemList ++ selectBody.tables r

def withTables (r : References) : List (WithItem τ) → List τ
  | [] => []
  | item :: rest => item.tables r ++ withTables r rest

end

def Select.tables (r : References) (statement : Select τ) : List τ :=
  statement.selectBody.tables r ++ withTables r statement.withItemsList

def optionalSelect (r : References) : Option (Select τ) → List τ
  | none => []
  | some statement => statement.tables r

/-- The tables of an `UPDATE` besides its targets. -/
def Update.innerTables (r : References) (statement : Update τ) : List τ :=
  optionalTables r statement.condition ++
    expressionsTables r statement.columns ++
    expressionsTables r statement.expressions ++
    optionalFrom r statement.fromItem ++ joinsTables r statement.joins ++
    optionalSelect r statement.select ++
    expressionsTables r statement.orderBy ++
    expressionsTables r statement.limits ++ itemsTables r statement.returning

/-- The tables of an `INSERT` besides its target. -/
def Insert.innerTables (r : References) (statement : Insert τ) : List τ :=
  expressionsTables r statement.columns ++
    optionalItems r statement.itemsList ++
    optionalSelect r statement.select ++
    expressionsTables r statement.setColumns ++
    expressionsTables r statement.setExpressions ++
    expressionsTables r statement.duplicateUpdateColumns ++
    expressionsTables r statement.duplicateUpdateExpressions ++
    itemsTables r statement.returning

/-- The tables of a `DELETE` besides the one that `FROM` names. -/
def Delete.innerTables (r : References) (statement : Delete τ) : List τ :=
  statement.tables ++ joinsTables r statement.joins ++
    optionalTables r statement.condition ++
    expressionsTables r statement.orderBy ++
    expressionsTables r statement.limits

def Statement.tables (r : References) : Statement τ → List τ
  | .select statement => statement.tables r
  | .update statement => statement.tables ++ statement.innerTables r
  | .insert statement => statement.table :: statement.innerTables r
  | .delete statement => statement.table :: statement.innerTables r
  | .other _ => []

end Tables

end Sharding
end ClpszDemos
