import Mathlib.Tactic
import ClpszDemos.ProgramLogic
import ClpszDemos.SqlSyntax

/-!
# The tables that the plugin finds

`createParser` wraps a statement and collects its tables: for a select by a
visitor that walks the tree, for the other statements only the targets.  Many
visit methods of the visitor are empty; `hidden` lists the tables below them,
and every table of a statement is either collected or hidden.
-/

namespace ClpszDemos
namespace Sharding

open JavaText

variable {τ : Type}

/-! ## `SelectSqlParser` -/

/-- The operators whose visit method calls `visitBinaryExpression`; the other
methods are empty. -/
def BinaryKind.visited : BinaryKind → Bool
  | .modulo => false
  | .regExpMatchOperator => false
  | .regExpMySQLOperator => false
  | _ => true

mutual

/-- `visit` adds the tables below an expression to the list `tables`. -/
def Expression.visit :
    Expression τ → List τ → Except Thrown (List τ)
  | .leaf _ _, tables => .ok tables
  | .column _ _, tables => .ok tables
  | .binary kind left right, tables =>
      if kind.visited then do
        let tables ← left.visit tables
        right.visit tables
      else
        .ok tables
  | .between left start stop, tables => do
      let tables ← left.visit tables
      let tables ← start.visit tables
      stop.visit tables
  | .parenthesis expression, tables => expression.visit tables
  | .inExpression left leftItemsList rightItemsList, tables => do
      let tables ← visitOptional left tables
      let tables ← visitOptionalItems leftItemsList tables
      visitOptionalItems rightItemsList tables
  | .existsExpression right, tables => right.visit tables
  | .allComparison subSelect, tables => subSelect.visit tables
  | .anyComparison subSelect, tables => subSelect.visit tables
  | .subSelect subSelect, tables => subSelect.visit tables
  | .compound _ _, tables => .ok tables

/-- An expression that is visited when it is not null. -/
def visitOptional :
    Option (Expression τ) → List τ → Except Thrown (List τ)
  | none, tables => .ok tables
  | some expression, tables => expression.visit tables

def visitExpressions :
    List (Expression τ) → List τ → Except Thrown (List τ)
  | [], tables => .ok tables
  | expression :: rest, tables => do
      let tables ← expression.visit tables
      visitExpressions rest tables

def ItemsList.visit : ItemsList τ → List τ → Except Thrown (List τ)
  | .subSelect subSelect, tables => subSelect.visit tables
  | .expressionList expressions, tables => visitExpressions expressions tables
  | .multiExpressionList _, tables => .ok tables

def visitOptionalItems :
    Option (ItemsList τ) → List τ → Except Thrown (List τ)
  | none, tables => .ok tables
  | some itemsList, tables => itemsList.visit tables

def SubSelect.visit : SubSelect τ → List τ → Except Thrown (List τ)
  | .mk selectBody _ _, tables => selectBody.visit tables

def FromItem.visit : FromItem τ → List τ → Except Thrown (List τ)
  | .table table _, tables => .ok (tables ++ [table])
  | .subSelect subSelect, tables => subSelect.visit tables
  | .subJoin left join _, tables => do
      let tables ← left.visit tables
      join.visit tables
  | .lateralSubSelect _ _, tables => .ok tables
  | .valuesList _, tables => .ok tables
  | .tableFunction _, tables => .ok tables

/-- A `FromItem` that is visited without a check for null. -/
def visitFrom : Option (FromItem τ) → List τ → Except Thrown (List τ)
  | none, _ => .error .nullPointer
  | some fromItem, tables => fromItem.visit tables

def Join.visit : Join τ → List τ → Except Thrown (List τ)
  | .mk rightItem _ _, tables => rightItem.visit tables

def visitJoins : List (Join τ) → List τ → Except Thrown (List τ)
  | [], tables => .ok tables
  | join :: rest, tables => do
      let tables ← join.visit tables
      visitJoins rest tables

def SelectBody.visit : SelectBody τ → List τ → Except Thrown (List τ)
  | .plainSelect _ _ _ fromItem joins condition _ _ _ _ _ _, tables => do
      let tables ← visitFrom fromItem tables
      let tables ← visitJoins joins tables
      visitOptional condition tables
  | .setOperationList _ _ _, tables => .ok tables
  | .withItem _, tables => .ok tables

end

/-! ## `createParser` -/

/-- The list that `getTables` gives after `init`. -/
def Statement.getTables : Statement τ → Except Thrown (List τ)
  | .select statement => statement.selectBody.visit []
  | .update statement => .ok ([] ++ statement.tables)
  | .insert statement => .ok ([] ++ [statement.table])
  | .delete statement => .ok ([] ++ [statement.table])
  | .other className =>
      .error (.sql (java "Unsupported Parser[" ++ className ++ java "]"))

/-! ## The tables below the empty visit methods -/

mutual

def Expression.hidden (r : References) : Expression τ → List τ
  | .leaf _ _ => []
  | .column table _ => r.qualifier table
  | .binary kind left right =>
      if kind.visited then
        left.hidden r ++ right.hidden r
      else
        left.tables r ++ right.tables r
  | .between left start stop =>
      left.hidden r ++ start.hidden r ++ stop.hidden r
  | .parenthesis expression => expression.hidden r
  | .inExpression left leftItemsList rightItemsList =>
      hiddenOptional r left ++ hiddenOptionalItems r leftItemsList ++
        hiddenOptionalItems r rightItemsList
  | .existsExpression right => right.hidden r
  | .allComparison subSelect => subSelect.hidden r
  | .anyComparison subSelect => subSelect.hidden r
  | .subSelect subSelect => subSelect.hidden r
  | .compound _ operands => expressionsTables r operands

def hiddenOptional (r : References) : Option (Expression τ) → List τ
  | none => []
  | some expression => expression.hidden r

def hiddenExpressions (r : References) : List (Expression τ) → List τ
  | [] => []
  | expression :: rest => expression.hidden r ++ hiddenExpressions r rest

def ItemsList.hidden (r : References) : ItemsList τ → List τ
  | .subSelect subSelect => subSelect.hidden r
  | .expressionList expressions => hiddenExpressions r expressions
  | .multiExpressionList exprList => rowsTables r exprList

def hiddenOptionalItems (r : References) : Option (ItemsList τ) → List τ
  | none => []
  | some itemsList => itemsList.hidden r

def SubSelect.hidden (r : References) : SubSelect τ → List τ
  | .mk selectBody withItemsList pivot =>
      selectBody.hidden r ++ withTables r withItemsList ++ pivotTables r pivot

def FromItem.hidden (r : References) : FromItem τ → List τ
  | .table _ pivot => pivotTables r pivot
  | .subSelect subSelect => subSelect.hidden r
  | .subJoin left join pivot =>
      left.hidden r ++ join.hidden r ++ pivotTables r pivot
  | .lateralSubSelect subSelect pivot =>
      subSelect.tables r ++ pivotTables r pivot
  | .valuesList multiExpressionList => rowsTables r multiExpressionList
  | .tableFunction function => function.tables r

def hiddenFrom (r : References) : Option (FromItem τ) → List τ
  | none => []
  | some fromItem => fromItem.hidden r

def Join.hidden (r : References) : Join τ → List τ
  | .mk rightItem onExpression usingColumns =>
      rightItem.hidden r ++ optionalTables r onExpression ++
        expressionsTables r usingColumns

def hiddenJoins (r : References) : List (Join τ) → List τ
  | [] => []
  | join :: rest => join.hidden r ++ hiddenJoins r rest

def SelectBody.hidden (r : References) : SelectBody τ → List τ
  | .plainSelect distinctOn selectItems intoTables fromItem joins condition
      oracleHierarchical groupBy orderBy having forUpdateTable limits =>
      itemsTables r distinctOn ++ itemsTables r selectItems ++ intoTables ++
        hiddenFrom r fromItem ++ hiddenJoins r joins ++
        hiddenOptional r condition ++ optionalTables r oracleHierarchical ++
        expressionsTables r groupBy ++ expressionsTables r orderBy ++
        optionalTables r having ++ r.qualifier forUpdateTable ++
        expressionsTables r limits
  | .setOperationList selects orderBy limits =>
      selectsTables r selects ++ expressionsTables r orderBy ++
        expressionsTables r limits
  | .withItem item => item.tables r

end

def Statement.hidden (r : References) : Statement τ → List τ
  | .select statement =>
      statement.selectBody.hidden r ++ withTables r statement.withItemsList
  | .update statement => statement.innerTables r
  | .insert statement => statement.innerTables r
  | .delete statement => statement.innerTables r
  | .other _ => []

/-! ## Every table is collected or hidden -/

section Counts

variable [DecidableEq τ]

mutual

theorem Expression.count_visit
    (r : References)
    (t : τ) :
    ∀ (expression : Expression τ) {tables out : List τ},
      expression.visit tables = .ok out →
        out.count t + (expression.hidden r).count t =
          tables.count t + (expression.tables r).count t
  | .leaf _ _, tables, out, hvisit => by
      simp only [Expression.visit, Except.ok.injEq] at hvisit
      simp [Expression.hidden, Expression.tables, hvisit]
  | .column _ _, tables, out, hvisit => by
      simp only [Expression.visit, Except.ok.injEq] at hvisit
      simp [Expression.hidden, Expression.tables, hvisit]
  | .binary kind left right, tables, out, hvisit => by
      by_cases hkind : kind.visited
      · simp only [Expression.visit, if_pos hkind] at hvisit
        obtain ⟨middle, hleft, hright⟩ := except_bind_eq_ok hvisit
        have hleft := left.count_visit r t hleft
        have hright := right.count_visit r t hright
        simp only [Expression.hidden, Expression.tables, if_pos hkind,
          List.count_append]
        omega
      · simp only [Expression.visit, if_neg hkind, Except.ok.injEq] at hvisit
        simp [Expression.hidden, Expression.tables, hkind, hvisit]
  | .between left start stop, tables, out, hvisit => by
      simp only [Expression.visit] at hvisit
      obtain ⟨first, hleft, hvisit⟩ := except_bind_eq_ok hvisit
      obtain ⟨second, hstart, hstop⟩ := except_bind_eq_ok hvisit
      have hleft := left.count_visit r t hleft
      have hstart := start.count_visit r t hstart
      have hstop := stop.count_visit r t hstop
      simp only [Expression.hidden, Expression.tables, List.count_append]
      omega
  | .parenthesis expression, tables, out, hvisit => by
      exact expression.count_visit r t hvisit
  | .inExpression left leftItemsList rightItemsList, tables, out, hvisit => by
      simp only [Expression.visit] at hvisit
      obtain ⟨first, hleft, hvisit⟩ := except_bind_eq_ok hvisit
      obtain ⟨second, hitems, hright⟩ := except_bind_eq_ok hvisit
      have hleft := count_visitOptional r t left hleft
      have hitems := count_visitOptionalItems r t leftItemsList hitems
      have hright := count_visitOptionalItems r t rightItemsList hright
      simp only [Expression.hidden, Expression.tables, List.count_append]
      omega
  | .existsExpression right, tables, out, hvisit => by
      exact right.count_visit r t hvisit
  | .allComparison subSelect, tables, out, hvisit => by
      exact subSelect.count_visit r t hvisit
  | .anyComparison subSelect, tables, out, hvisit => by
      exact subSelect.count_visit r t hvisit
  | .subSelect subSelect, tables, out, hvisit => by
      exact subSelect.count_visit r t hvisit
  | .compound _ _, tables, out, hvisit => by
      simp only [Expression.visit, Except.ok.injEq] at hvisit
      simp [Expression.hidden, Expression.tables, hvisit]

theorem count_visitOptional
    (r : References)
    (t : τ) :
    ∀ (expression : Option (Expression τ)) {tables out : List τ},
      visitOptional expression tables = .ok out →
        out.count t + (hiddenOptional r expression).count t =
          tables.count t + (optionalTables r expression).count t
  | none, tables, out, hvisit => by
      simp only [visitOptional, Except.ok.injEq] at hvisit
      simp [hiddenOptional, optionalTables, hvisit]
  | some expression, tables, out, hvisit => by
      exact expression.count_visit r t hvisit

theorem count_visitExpressions
    (r : References)
    (t : τ) :
    ∀ (expressions : List (Expression τ)) {tables out : List τ},
      visitExpressions expressions tables = .ok out →
        out.count t + (hiddenExpressions r expressions).count t =
          tables.count t + (expressionsTables r expressions).count t
  | [], tables, out, hvisit => by
      simp only [visitExpressions, Except.ok.injEq] at hvisit
      simp [hiddenExpressions, expressionsTables, hvisit]
  | expression :: rest, tables, out, hvisit => by
      simp only [visitExpressions] at hvisit
      obtain ⟨middle, hhead, hrest⟩ := except_bind_eq_ok hvisit
      have hhead := expression.count_visit r t hhead
      have hrest := count_visitExpressions r t rest hrest
      simp only [hiddenExpressions, expressionsTables, List.count_append]
      omega

theorem ItemsList.count_visit
    (r : References)
    (t : τ) :
    ∀ (itemsList : ItemsList τ) {tables out : List τ},
      itemsList.visit tables = .ok out →
        out.count t + (itemsList.hidden r).count t =
          tables.count t + (itemsList.tables r).count t
  | .subSelect subSelect, tables, out, hvisit => by
      exact subSelect.count_visit r t hvisit
  | .expressionList expressions, tables, out, hvisit => by
      exact count_visitExpressions r t expressions hvisit
  | .multiExpressionList _, tables, out, hvisit => by
      simp only [ItemsList.visit, Except.ok.injEq] at hvisit
      simp [ItemsList.hidden, ItemsList.tables, hvisit]

theorem count_visitOptionalItems
    (r : References)
    (t : τ) :
    ∀ (itemsList : Option (ItemsList τ)) {tables out : List τ},
      visitOptionalItems itemsList tables = .ok out →
        out.count t + (hiddenOptionalItems r itemsList).count t =
          tables.count t + (optionalItems r itemsList).count t
  | none, tables, out, hvisit => by
      simp only [visitOptionalItems, Except.ok.injEq] at hvisit
      simp [hiddenOptionalItems, optionalItems, hvisit]
  | some itemsList, tables, out, hvisit => by
      exact itemsList.count_visit r t hvisit

theorem SubSelect.count_visit
    (r : References)
    (t : τ) :
    ∀ (subSelect : SubSelect τ) {tables out : List τ},
      subSelect.visit tables = .ok out →
        out.count t + (subSelect.hidden r).count t =
          tables.count t + (subSelect.tables r).count t
  | .mk selectBody withItemsList pivot, tables, out, hvisit => by
      have hbody := selectBody.count_visit r t hvisit
      simp only [SubSelect.hidden, SubSelect.tables, List.count_append]
      omega

theorem FromItem.count_visit
    (r : References)
    (t : τ) :
    ∀ (fromItem : FromItem τ) {tables out : List τ},
      fromItem.visit tables = .ok out →
        out.count t + (fromItem.hidden r).count t =
          tables.count t + (fromItem.tables r).count t
  | .table table pivot, tables, out, hvisit => by
      simp only [FromItem.visit, Except.ok.injEq] at hvisit
      simp only [FromItem.hidden, FromItem.tables, ← hvisit,
        List.count_append, List.count_cons, List.count_nil]
      omega
  | .subSelect subSelect, tables, out, hvisit => by
      exact subSelect.count_visit r t hvisit
  | .subJoin left join pivot, tables, out, hvisit => by
      simp only [FromItem.visit] at hvisit
      obtain ⟨middle, hleft, hjoin⟩ := except_bind_eq_ok hvisit
      have hleft := left.count_visit r t hleft
      have hjoin := join.count_visit r t hjoin
      simp only [FromItem.hidden, FromItem.tables, List.count_append]
      omega
  | .lateralSubSelect _ _, tables, out, hvisit => by
      simp only [FromItem.visit, Except.ok.injEq] at hvisit
      simp [FromItem.hidden, FromItem.tables, hvisit]
  | .valuesList _, tables, out, hvisit => by
      simp only [FromItem.visit, Except.ok.injEq] at hvisit
      simp [FromItem.hidden, FromItem.tables, hvisit]
  | .tableFunction _, tables, out, hvisit => by
      simp only [FromItem.visit, Except.ok.injEq] at hvisit
      simp [FromItem.hidden, FromItem.tables, hvisit]

theorem count_visitFrom
    (r : References)
    (t : τ) :
    ∀ (fromItem : Option (FromItem τ)) {tables out : List τ},
      visitFrom fromItem tables = .ok out →
        out.count t + (hiddenFrom r fromItem).count t =
          tables.count t + (optionalFrom r fromItem).count t
  | none, tables, out, hvisit => by
      simp [visitFrom] at hvisit
  | some fromItem, tables, out, hvisit => by
      exact fromItem.count_visit r t hvisit

theorem Join.count_visit
    (r : References)
    (t : τ) :
    ∀ (join : Join τ) {tables out : List τ},
      join.visit tables = .ok out →
        out.count t + (join.hidden r).count t =
          tables.count t + (join.tables r).count t
  | .mk rightItem onExpression usingColumns, tables, out, hvisit => by
      have hright := rightItem.count_visit r t hvisit
      simp only [Join.hidden, Join.tables, List.count_append]
      omega

theorem count_visitJoins
    (r : References)
    (t : τ) :
    ∀ (joins : List (Join τ)) {tables out : List τ},
      visitJoins joins tables = .ok out →
        out.count t + (hiddenJoins r joins).count t =
          tables.count t + (joinsTables r joins).count t
  | [], tables, out, hvisit => by
      simp only [visitJoins, Except.ok.injEq] at hvisit
      simp [hiddenJoins, joinsTables, hvisit]
  | join :: rest, tables, out, hvisit => by
      simp only [visitJoins] at hvisit
      obtain ⟨middle, hhead, hrest⟩ := except_bind_eq_ok hvisit
      have hhead := join.count_visit r t hhead
      have hrest := count_visitJoins r t rest hrest
      simp only [hiddenJoins, joinsTables, List.count_append]
      omega

theorem SelectBody.count_visit
    (r : References)
    (t : τ) :
    ∀ (selectBody : SelectBody τ) {tables out : List τ},
      selectBody.visit tables = .ok out →
        out.count t + (selectBody.hidden r).count t =
          tables.count t + (selectBody.tables r).count t
  | .plainSelect _ _ _ fromItem joins condition _ _ _ _ _ _,
      tables, out, hvisit => by
      simp only [SelectBody.visit] at hvisit
      obtain ⟨first, hfrom, hvisit⟩ := except_bind_eq_ok hvisit
      obtain ⟨second, hjoins, hcondition⟩ := except_bind_eq_ok hvisit
      have hfrom := count_visitFrom r t fromItem hfrom
      have hjoins := count_visitJoins r t joins hjoins
      have hcondition := count_visitOptional r t condition hcondition
      simp only [SelectBody.hidden, SelectBody.tables, List.count_append]
      omega
  | .setOperationList _ _ _, tables, out, hvisit => by
      simp only [SelectBody.visit, Except.ok.injEq] at hvisit
      simp [SelectBody.hidden, SelectBody.tables, hvisit]
  | .withItem _, tables, out, hvisit => by
      simp only [SelectBody.visit, Except.ok.injEq] at hvisit
      simp [SelectBody.hidden, SelectBody.tables, hvisit]

end

end Counts

end Sharding
end ClpszDemos
