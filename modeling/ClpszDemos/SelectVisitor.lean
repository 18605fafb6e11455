import Mathlib.Tactic
import ClpszDemos.Collecting
import ClpszDemos.ShardRewriting

/-!
# `SelectSqlParser` as an object

`visit` gives the tables of a select that is walked to its end.  The object
keeps them in a field, so what a walk has added before a null pointer stays
there, and `init` walks once, whether it ends or not.  However often `init`
is called, the field lists tables of the statement from left to right, each at
most once, and `intercept` renames each of them once.
-/

namespace ClpszDemos
namespace Sharding

open JavaText

variable {τ : Type}

/-! ## The visit methods -/

mutual

def Expression.accept : Expression τ → Collector Thrown τ Unit
  | .leaf _ _ => pure ()
  | .column _ _ => pure ()
  | .binary kind left right =>
      if kind.visited then do
        left.accept
        right.accept
      else
        pure ()
  | .between left start stop => do
      left.accept
      start.accept
      stop.accept
  | .parenthesis expression => expression.accept
  | .inExpression left leftItemsList rightItemsList => do
      acceptOptional left
      acceptOptionalItems leftItemsList
      acceptOptionalItems rightItemsList
  | .existsExpression right => right.accept
  | .allComparison subSelect => subSelect.accept
  | .anyComparison subSelect => subSelect.accept
  | .subSelect subSelect => subSelect.accept
  | .compound _ _ => pure ()

def acceptOptional : Option (Expression τ) → Collector Thrown τ Unit
  | none => pure ()
  | some expression => expression.accept

def acceptExpressions : List (Expression τ) → Collector Thrown τ Unit
  | [] => pure ()
  | expression :: rest => do
      expression.accept
      acceptExpressions rest

def ItemsList.accept : ItemsList τ → Collector Thrown τ Unit
  | .subSelect subSelect => subSelect.accept
  | .expressionList expressions => acceptExpressions expressions
  | .multiExpressionList _ => pure ()

def acceptOptionalItems : Option (ItemsList τ) → Collector Thrown τ Unit
  | none => pure ()
  | some itemsList => itemsList.accept

def SubSelect.accept : SubSelect τ → Collector Thrown τ Unit
  | .mk selectBody _ _ => selectBody.accept

def FromItem.accept : FromItem τ → Collector Thrown τ Unit
  | .table table _ => Collector.collect table
  | .subSelect subSelect => subSelect.accept
  | .subJoin left join _ => do
      left.accept
      join.accept
  | .lateralSubSelect _ _ => pure ()
  | .valuesList _ => pure ()
  | .tableFunction _ => pure ()

/-- A `FromItem` that may be null and is visited all the same. -/
def acceptFrom : Option (FromItem τ) → Collector Thrown τ Unit
  | none => throw .nullPointer
  | some fromItem => fromItem.accept

def Join.accept : Join τ → Collector Thrown τ Unit
  | .mk rightItem _ _ => rightItem.accept

def acceptJoins : List (Join τ) → Collector Thrown τ Unit
  | [] => pure ()
  | join :: rest => do
      join.accept
      acceptJoins rest

def SelectBody.accept : SelectBody τ → Collector Thrown τ Unit
  | .plainSelect _ _ _ fromItem joins condition _ _ _ _ _ _ => do
      acceptFrom fromItem
      acceptJoins joins
      acceptOptional condition
  | .setOperationList _ _ _ => pure ()
  | .withItem _ => pure ()

end

/-! ## The object -/

structure SelectSqlParser (τ : Type) where
  inited : Bool
  statement : Select τ
  tables : List τ

namespace SelectSqlParser

/-- The constructor -/
def new (statement : Select τ) : SelectSqlParser τ :=
  { inited := false, statement := statement, tables := [] }

def getTables (parser : SelectSqlParser τ) : List τ :=
  parser.tables

/-- How `init` ends, and the object then -/
def init (parser : SelectSqlParser τ) :
    Except Thrown Unit × SelectSqlParser τ :=
  if !parser.inited then
    let walk := parser.statement.selectBody.accept.exec parser.tables
    (walk.1, { parser with inited := true, tables := walk.2 })
  else
    (.ok (), parser)

/-- The object after some calls of `init`, each of which may throw -/
def inits : ℕ → SelectSqlParser τ → SelectSqlParser τ
  | 0, parser => parser
  | n + 1, parser => inits n parser.init.2

end SelectSqlParser

/-! ## A walk to the end -/

mutual

theorem Expression.result_accept :
    ∀ (expression : Expression τ) (tables : List τ),
      expression.accept.result tables = expression.visit tables
  | .leaf _ _, tables => rfl
  | .column _ _, tables => rfl
  | .binary kind left right, tables => by
      by_cases hkind : kind.visited
      · simp [Expression.accept, Expression.visit, hkind, left.result_accept,
          right.result_accept]
      · simp [Expression.accept, Expression.visit, hkind]
  | .between left start stop, tables => by
      simp [Expression.accept, Expression.visit, left.result_accept,
        start.result_accept, stop.result_accept]
  | .parenthesis expression, tables => expression.result_accept tables
  | .inExpression left leftItemsList rightItemsList, tables => by
      simp [Expression.accept, Expression.visit, result_acceptOptional left,
        result_acceptOptionalItems leftItemsList,
        result_acceptOptionalItems rightItemsList]
  | .existsExpression right, tables => right.result_accept tables
  | .allComparison subSelect, tables => subSelect.result_accept tables
  | .anyComparison subSelect, tables => subSelect.result_accept tables
  | .subSelect subSelect, tables => subSelect.result_accept tables
  | .compound _ _, tables => rfl

theorem result_acceptOptional :
    ∀ (expression : Option (Expression τ)) (tables : List τ),
      (acceptOptional expression).result tables =
        visitOptional expression tables
  | none, _ => rfl
  | some expression, tables => expression.result_accept tables

theorem result_acceptExpressions :
    ∀ (expressions : List (Expression τ)) (tables : List τ),
      (acceptExpressions expressions).result tables =
        visitExpressions expressions tables
  | [], tables => rfl
  | expression :: rest, tables => by
      simp [acceptExpressions, visitExpressions, expression.result_accept,
        result_acceptExpressions rest]

theorem ItemsList.result_accept :
    ∀ (itemsList : ItemsList τ) (tables : List τ),
      itemsList.accept.result tables = itemsList.visit tables
  | .subSelect subSelect, tables => subSelect.result_accept tables
  | .expressionList expressions, tables =>
      result_acceptExpressions expressions tables
  | .multiExpressionList _, _ => rfl

theorem result_acceptOptionalItems :
    ∀ (itemsList : Option (ItemsList τ)) (tables : List τ),
      (acceptOptionalItems itemsList).result tables =
        visitOptionalItems itemsList tables
  | none, _ => rfl
  | some itemsList, tables => itemsList.result_accept tables

theorem SubSelect.result_accept :
    ∀ (subSelect : SubSelect τ) (tables : List τ),
      subSelect.accept.result tables = subSelect.visit tables
  | .mk selectBody _ _, tables => selectBody.result_accept tables

theorem FromItem.result_accept :
    ∀ (fromItem : FromItem τ) (tables : List τ),
      fromItem.accept.result tables = fromItem.visit tables
  | .table _ _, tables => rfl
  | .subSelect subSelect, tables => subSelect.result_accept tables
  | .subJoin left join _, tables => by
      simp [FromItem.accept, FromItem.visit, left.result_accept,
        join.result_accept]
  | .lateralSubSelect _ _, tables => rfl
  | .valuesList _, tables => rfl
  | .tableFunction _, tables => rfl

theorem result_acceptFrom :
    ∀ (fromItem : Option (FromItem τ)) (tables : List τ),
      (acceptFrom fromItem).result tables = visitFrom fromItem tables
  | none, _ => rfl
  | some fromItem, tables => fromItem.result_accept tables

theorem Join.result_accept :
    ∀ (join : Join τ) (tables : List τ),
      join.accept.result tables = join.visit tables
  | .mk rightItem _ _, tables => rightItem.result_accept tables

theorem result_acceptJoins :
    ∀ (joins : List (Join τ)) (tables : List τ),
      (acceptJoins joins).result tables = visitJoins joins tables
  | [], tables => rfl
  | join :: rest, tables => by
      simp [acceptJoins, visitJoins, join.result_accept,
        result_acceptJoins rest]

theorem SelectBody.result_accept :
    ∀ (selectBody : SelectBody τ) (tables : List τ),
      selectBody.accept.result tables = selectBody.visit tables
  | .plainSelect _ _ _ fromItem joins condition _ _ _ _ _ _, tables => by
      simp [SelectBody.accept, SelectBody.visit, result_acceptFrom fromItem,
        result_acceptJoins joins, result_acceptOptional condition]
  | .setOperationList _ _ _, tables => rfl
  | .withItem _, tables => rfl

end

/-! ## A walk, however it ends -/

section Collects

open Collector

variable (r : References)

mutual

theorem Expression.collects :
    ∀ expression : Expression τ,
      Collects expression.accept (expression.tables r)
  | .leaf _ _ => Collects.nothing
  | .column table _ => Collects.nothing.mono (List.nil_sublist _)
  | .binary kind left right => by
      unfold Expression.accept Expression.tables
      by_cases hkind : kind.visited
      · rw [if_pos hkind]
        exact left.collects.bind right.collects
      · rw [if_neg hkind]
        exact Collects.nothing.mono (List.nil_sublist _)
  | .between left start stop => by
      unfold Expression.accept Expression.tables
      rw [List.append_assoc]
      exact left.collects.bind (start.collects.bind stop.collects)
  | .parenthesis expression => expression.collects
  | .inExpression left leftItemsList rightItemsList => by
      unfold Expression.accept Expression.tables
      rw [List.append_assoc]
      exact (collects_optional left).bind
        ((collects_optionalItems leftItemsList).bind
          (collects_optionalItems rightItemsList))
  | .existsExpression right => right.collects
  | .allComparison subSelect => subSelect.collects
  | .anyComparison subSelect => subSelect.collects
  | .subSelect subSelect => subSelect.collects
  | .compound _ _ => Collects.nothing.mono (List.nil_sublist _)

theorem collects_optional :
    ∀ expression : Option (Expression τ),
      Collects (acceptOptional expression) (optionalTables r expression)
  | none => Collects.nothing
  | some expression => expression.collects

theorem collects_expressions :
    ∀ expressions : List (Expression τ),
      Collects (acceptExpressions expressions)
        (expressionsTables r expressions)
  | [] => Collects.nothing
  | expression :: rest =>
      expression.collects.bind (collects_expressions rest)

theorem ItemsList.collects :
    ∀ itemsList : ItemsList τ,
      Collects itemsList.accept (itemsList.tables r)
  | .subSelect subSelect => subSelect.collects
  | .expressionList expressions => collects_expressions expressions
  | .multiExpressionList _ => Collects.nothing.mono (List.nil_sublist _)

theorem collects_optionalItems :
    ∀ itemsList : Option (ItemsList τ),
      Collects (acceptOptionalItems itemsList) (optionalItems r itemsList)
  | none => Collects.nothing
  | some itemsList => itemsList.collects

theorem SubSelect.collects :
    ∀ subSelect : SubSelect τ,
      Collects subSelect.accept (subSelect.tables r)
  | .mk selectBody withItemsList pivot => by
      unfold SubSelect.accept SubSelect.tables
      rw [List.append_assoc]
      exact selectBody.collects.mono (List.sublist_append_left _ _)

theorem FromItem.collects :
    ∀ fromItem : FromItem τ,
      Collects fromItem.accept (fromItem.tables r)
  | .table table pivot => by
      apply (Collects.collect table).mono
      exact (List.nil_sublist _).cons_cons table
  | .subSelect subSelect => subSelect.collects
  | .subJoin left join pivot =>
      (left.collects.bind join.collects).mono (List.sublist_append_left _ _)
  | .lateralSubSelect _ _ => Collects.nothing.mono (List.nil_sublist _)
  | .valuesList _ => Collects.nothing.mono (List.nil_sublist _)
  | .tableFunction _ => Collects.nothing.mono (List.nil_sublist _)

theorem collects_from :
    ∀ fromItem : Option (FromItem τ),
      Collects (acceptFrom fromItem) (optionalFrom r fromItem)
  | none => Collects.throw Thrown.nullPointer
  | some fromItem => fromItem.collects

theorem Join.collects :
    ∀ join : Join τ, Collects join.accept (join.tables r)
  | .mk rightItem onExpression usingColumns => by
      unfold Join.accept Join.tables
      rw [List.append_assoc]
      exact rightItem.collects.mono (List.sublist_append_left _ _)

theorem collects_joins :
    ∀ joins : List (Join τ),
      Collects (acceptJoins joins) (joinsTables r joins)
  | [] => Collects.nothing
  | join :: rest => join.collects.bind (collects_joins rest)

theorem SelectBody.collects :
    ∀ selectBody : SelectBody τ,
      Collects selectBody.accept (selectBody.tables r)
  | .plainSelect distinctOn selectItems intoTables fromItem joins condition
      oracleHierarchical groupBy orderBy having forUpdateTable limits => by
      have hwalk := (collects_from fromItem).bind
        ((collects_joins joins).bind (collects_optional condition))
      apply hwalk.mono
      -- the tables in front of the walk and those behind it
      have hfront := List.sublist_append_right
        (itemsTables r distinctOn ++ itemsTables r selectItems ++ intoTables)
        (optionalFrom r fromItem ++ (joinsTables r joins ++
          optionalTables r condition))
      have hbehind := List.sublist_append_left
        (itemsTables r distinctOn ++ itemsTables r selectItems ++ intoTables ++
          (optionalFrom r fromItem ++ (joinsTables r joins ++
            optionalTables r condition)))
        (optionalTables r oracleHierarchical ++
          (expressionsTables r groupBy ++ (expressionsTables r orderBy ++
            (optionalTables r having ++ (r.qualifier forUpdateTable ++
              expressionsTables r limits)))))
      have hbody := hfront.trans hbehind
      simp only [SelectBody.tables, List.append_assoc] at hbody ⊢
      exact hbody
  | .setOperationList _ _ _ => Collects.nothing.mono (List.nil_sublist _)
  | .withItem _ => Collects.nothing.mono (List.nil_sublist _)

end

end Collects

/-! ## Any number of calls -/

namespace SelectSqlParser

theorem inits_inited {parser : SelectSqlParser τ}
    (hinited : parser.inited = true) (n : ℕ) : parser.inits n = parser := by
  have hinit : parser.init.2 = parser := by
    unfold init
    rw [hinited]
    rfl
  induction n with
  | zero => rfl
  | succ n ih =>
      unfold inits
      rw [hinit]
      exact ih

/-- After the first call the others change nothing. -/
theorem inits_new (statement : Select τ) (n : ℕ) :
    (new statement).inits (n + 1) = (new statement).init.2 := by
  unfold inits
  exact inits_inited rfl n

/-- The tables are listed in the order of the statement. -/
theorem getTables_sublist (r : References) (statement : Select τ) (n : ℕ) :
    ((new statement).inits n).getTables.Sublist (statement.tables r) := by
  cases n with
  | zero => exact List.nil_sublist _
  | succ n =>
      rw [inits_new]
      obtain ⟨added, hadded, hlist⟩ :=
        SelectBody.collects r statement.selectBody []
      have htables : (new statement).init.2.getTables = added := hlist
      rw [htables]
      exact hadded.trans (List.sublist_append_left _ _)

/-- A call that ends lists what the plugin moves. -/
theorem init_ok {statement : Select τ}
    (hinit : (new statement).init.1 = .ok ()) :
    (Statement.select statement).getTables =
      .ok (new statement).init.2.getTables := by
  have hwalk : (statement.selectBody.accept.exec []).1 = .ok () := hinit
  have hresult := statement.selectBody.result_accept []
  rw [Collector.result_of_ok hwalk] at hresult
  exact hresult.symm

theorem init_error {statement : Select τ} {error : Thrown}
    (hinit : (new statement).init.1 = .error error) :
    (Statement.select statement).getTables = .error error := by
  have hwalk : (statement.selectBody.accept.exec []).1 = .error error := hinit
  have hresult := statement.selectBody.result_accept []
  rw [Collector.result_of_error hwalk] at hresult
  exact hresult.symm

end SelectSqlParser

/-! ## One new name for each table -/

section Renaming

variable [DecidableEq τ]

/-- Of the iterations of the loop one renames the table, from its name to its
name in the shard, and the others leave it alone. -/
def RenamedOnce (table2DB : Table2DB) (boundSql : BoundSql)
    (shard : List JString) (tables : List τ) (store next : τ → TableData)
    (t : τ) : Prop :=
  ∃ before after first second,
    tables = before ++ t :: after ∧
    shardTables table2DB boundSql before store = .ok first ∧
    first t = store t ∧
    shardTable table2DB boundSql first t = .ok second ∧
    (second t).name = (store t).name ++ java "_" ++ shard.getD 2 [] ∧
    shardTables table2DB boundSql after second = .ok next ∧
    next t = second t

theorem shardTables_append (table2DB : Table2DB) (boundSql : BoundSql)
    (before after : List τ) (store : τ → TableData) :
    shardTables table2DB boundSql (before ++ after) store =
      (shardTables table2DB boundSql before store >>=
        shardTables table2DB boundSql after) := by
  induction before generalizing store with
  | nil => rfl
  | cons table before ih =>
      simp only [List.cons_append, shardTables, bind_assoc, ih]

/-- The loop leaves alone what it is not given. -/
theorem shardTables_of_notMem {boundSql : BoundSql} {shard : List JString}
    (hshard : boundSql.Yields shard) {table2DB : Table2DB}
    {tables : List τ} (hnodup : tables.Nodup) {store next : τ → TableData}
    (hnext : shardTables table2DB boundSql tables store = .ok next)
    {t : τ} (ht : t ∉ tables) : next t = store t := by
  rw [shardTables_yields hshard table2DB hnodup] at hnext
  injection hnext with hnext
  subst hnext
  exact if_neg ht

theorem renamedOnce {boundSql : BoundSql} {shard : List JString}
    (hshard : boundSql.Yields shard) {table2DB : Table2DB}
    {tables : List τ} (hnodup : tables.Nodup) {store next : τ → TableData}
    (hnext : shardTables table2DB boundSql tables store = .ok next)
    {t : τ} (ht : t ∈ tables) :
    RenamedOnce table2DB boundSql shard tables store next t := by
  obtain ⟨before, after, rfl⟩ := List.append_of_mem ht
  rw [shardTables_append] at hnext
  obtain ⟨first, hfirst, hrest⟩ := except_bind_eq_ok hnext
  obtain ⟨second, hsecond, hafter⟩ := except_bind_eq_ok hrest
  have hsplit := List.nodup_append.mp hnodup
  have hnotBefore : t ∉ before := by
    intro hmem
    exact hsplit.2.2 t hmem t (List.mem_cons_self ..) rfl
  have hnotAfter := List.nodup_cons.mp hsplit.2.1
  have hkept := shardTables_of_notMem hshard hsplit.1 hfirst hnotBefore
  have hmoved := shardTable_yields hshard table2DB first t
  rw [hsecond] at hmoved
  injection hmoved with hmoved
  have hname : (second t).name =
      (store t).name ++ java "_" ++ shard.getD 2 [] := by
    rw [hmoved, Function.update_self, hkept]
    rfl
  exact ⟨before, after, first, second, rfl, hfirst, hkept, hsecond, hname,
    hafter, shardTables_of_notMem hshard hnotAfter.2 hafter hnotAfter.1⟩

omit [DecidableEq τ] in
theorem createParser_select
    {parseSql : JString → Option (ParsedStatement τ)} {sql : JString}
    {parsed : ParsedStatement τ} {statement : Select τ}
    (hparse : parseSql sql = some parsed)
    (hselect : parsed.statement = .select statement) :
    createParser parseSql sql =
      ((Statement.select statement).getTables >>= fun tables =>
        pure (parsed, tables)) := by
  unfold createParser
  rw [hparse]
  dsimp only
  rw [hselect]

/-- No table of a select is rewritten twice, however often `init` is called
and however it ends. -/
theorem tables_renamed_once
    {parseSql : JString → Option (ParsedStatement τ)} {boundSql : BoundSql}
    {parsed : ParsedStatement τ} {statement : Select τ}
    (hparse : parseSql boundSql.sql = some parsed)
    (hselect : parsed.statement = .select statement) (n : ℕ) :
    (∀ r, ((SelectSqlParser.new statement).inits n).getTables.Sublist
      (parsed.statement.tables r)) ∧
    ((SelectSqlParser.new statement).inits n).getTables.Nodup ∧
    ∀ (table2DB : Table2DB) (shard : List JString), boundSql.Yields shard →
      (∀ error, (SelectSqlParser.new statement).init.1 = .error error →
        intercept parseSql table2DB boundSql = .error error) ∧
      ((SelectSqlParser.new statement).init.1 = .ok () →
        ∃ next,
          intercept parseSql table2DB boundSql =
            .ok { parsed with table := next } ∧
          (∀ t ∈ ((SelectSqlParser.new statement).inits (n + 1)).getTables,
            RenamedOnce table2DB boundSql shard
              ((SelectSqlParser.new statement).inits (n + 1)).getTables
              parsed.table next t) ∧
          ∀ t ∉ ((SelectSqlParser.new statement).inits (n + 1)).getTables,
            next t = parsed.table t) := by
  have hsublist : ∀ n r,
      ((SelectSqlParser.new statement).inits n).getTables.Sublist
        (parsed.statement.tables r) := by
    intro n r
    rw [hselect]
    exact SelectSqlParser.getTables_sublist r statement n
  have hnodup : ∀ n,
      ((SelectSqlParser.new statement).inits n).getTables.Nodup :=
    fun n => (hsublist n .sources).nodup (parsed.fresh .sources)
  refine ⟨hsublist n, hnodup n, ?_⟩
  intro table2DB shard hshard
  have hcreate := createParser_select hparse hselect
  constructor
  · intro error hinit
    unfold intercept
    rw [hcreate, SelectSqlParser.init_error hinit]
    rfl
  · intro hinit
    rw [SelectSqlParser.inits_new]
    have htables := hnodup (n + 1)
    rw [SelectSqlParser.inits_new] at htables
    have hnext := shardTables_yields hshard table2DB htables parsed.table
    refine ⟨_, ?_, fun t ht => renamedOnce hshard htables hnext ht,
      fun t ht => shardTables_of_notMem hshard htables hnext ht⟩
    unfold intercept
    rw [hcreate, SelectSqlParser.init_ok hinit]
    simp only [bind, Except.bind, pure, Except.pure, hnext]

/-- `select * from t_pay_order, t_pay_order where exists (select ...)`. -/
def payOrderTwice : Select Nat :=
  { selectBody :=
      .plainSelect [] [.allColumns] [] (some (.table 0 none))
        [.mk (.table 1 none) none []]
        (some (.existsExpression (.subSelect
          (.mk (payOrderQuery 2) [] none))))
        none [] [] none none []
    withItemsList := [] }

def payOrderTwiceParsed : ParsedStatement Nat :=
  { statement := .select payOrderTwice
    table := fun _ => logicTable "t_pay_order"
    fresh := by
      intro r
      cases r <;> decide }

theorem tables_renamed_once_payOrderTwice :
    ((SelectSqlParser.new payOrderTwice).inits 2).getTables.Nodup ∧
      ∃ next, intercept (fun _ => some payOrderTwiceParsed) payOrderTable2DB
          (selectByPrimaryKeySql "CPO2017031422200222") =
            .ok { payOrderTwiceParsed with table := next } ∧
        ∀ t ∈ [0, 1, 2],
          RenamedOnce payOrderTable2DB
            (selectByPrimaryKeySql "CPO2017031422200222")
            [java "00", java "22", java "2"] [0, 1, 2]
            payOrderTwiceParsed.table next t := by
  have hrenamed := @tables_renamed_once Nat _
    (fun _ => some payOrderTwiceParsed)
    (selectByPrimaryKeySql "CPO2017031422200222") payOrderTwiceParsed
    payOrderTwice rfl rfl 2
  obtain ⟨next, hnext, hmoved, _⟩ :=
    (hrenamed.2.2 payOrderTable2DB _ selectByPrimaryKeySql_yields).2 rfl
  exact ⟨hrenamed.2.1, next, hnext, hmoved⟩

end Renaming

end Sharding
end ClpszDemos
