import Mathlib.Tactic
import ClpszDemos.ShardPlugin

/-!
# What the shard plugin does to a statement

With a shard, `intercept` moves exactly the tables that the parsers find to
the shard, registered or not, and leaves the hidden ones as they are.  Without
one it fails as soon as there is a table to move.
-/

namespace ClpszDemos
namespace Sharding

open JavaText

variable {τ : Type} [DecidableEq τ]

/-! ## The loop over the tables -/

/-- A table in a shard. -/
def TableData.inShard
    (table2DB : Table2DB)
    (shard : List JString)
    (data : TableData) : TableData :=
  { schemaName := some (concatText (table2DB data.name).join ++ java "_" ++
      shard.getD 0 [] ++ java "_" ++ shard.getD 1 [] ++ java "_db")
    name := data.name ++ java "_" ++ shard.getD 2 [] }

theorem TableData.inShard_name_ne
    (table2DB : Table2DB)
    (shard : List JString)
    (data : TableData) :
    (data.inShard table2DB shard).name ≠ data.name := by
  intro hname
  have hlength := congrArg List.length hname
  have hsep : (java "_").length = 1 := rfl
  simp only [TableData.inShard, List.length_append, hsep] at hlength
  omega

/-- The parameters of a statement name a shard. -/
def BoundSql.Yields (boundSql : BoundSql) (shard : List JString) : Prop :=
  ∃ params, paresParams boundSql = .ok params ∧ parse params = .ok shard

theorem shardTable_yields
    {boundSql : BoundSql}
    {shard : List JString}
    (hshard : boundSql.Yields shard)
    (table2DB : Table2DB)
    (store : τ → TableData)
    (table : τ) :
    shardTable table2DB boundSql store table =
      .ok (Function.update store table
        ((store table).inShard table2DB shard)) := by
  obtain ⟨params, hparams, hparse⟩ := hshard
  obtain ⟨set, db, tbl, rfl⟩ := parse_length hparse
  unfold shardTable
  rw [hparams]
  simp only [bind, Except.bind, hparse]
  rfl

theorem shardTable_fails
    {boundSql : BoundSql}
    (hnone : ∀ shard, ¬ boundSql.Yields shard)
    (table2DB : Table2DB)
    (store next : τ → TableData)
    (table : τ) :
    shardTable table2DB boundSql store table ≠ .ok next := by
  intro hrun
  unfold shardTable at hrun
  obtain ⟨params, hparams, hrun⟩ := except_bind_eq_ok hrun
  obtain ⟨shard, hparse, hrun⟩ := except_bind_eq_ok hrun
  exact hnone shard ⟨params, hparams, hparse⟩

/-- Different tables are moved one by one, each from its own name. -/
theorem shardTables_yields
    {boundSql : BoundSql}
    {shard : List JString}
    (hshard : boundSql.Yields shard)
    (table2DB : Table2DB)
    {tables : List τ}
    (hnodup : tables.Nodup)
    (store : τ → TableData) :
    shardTables table2DB boundSql tables store =
      .ok (fun t => if t ∈ tables then (store t).inShard table2DB shard
        else store t) := by
  induction tables generalizing store with
  | nil => simp [shardTables]
  | cons table rest ih =>
      have hhead : table ∉ rest := (List.nodup_cons.mp hnodup).1
      have hrest : rest.Nodup := (List.nodup_cons.mp hnodup).2
      unfold shardTables
      rw [shardTable_yields hshard]
      simp only [bind, Except.bind, ih hrest, Except.ok.injEq]
      funext t
      by_cases htable : t = table
      · subst htable
        simp [hhead]
      · simp [htable]

theorem shardTables_fails
    {boundSql : BoundSql}
    (hnone : ∀ shard, ¬ boundSql.Yields shard)
    (table2DB : Table2DB)
    {tables : List τ}
    (htables : tables ≠ [])
    (store next : τ → TableData) :
    shardTables table2DB boundSql tables store ≠ .ok next := by
  intro hrun
  cases tables with
  | nil => exact htables rfl
  | cons table rest =>
      unfold shardTables at hrun
      obtain ⟨middle, hhead, hrun⟩ := except_bind_eq_ok hrun
      exact shardTable_fails hnone table2DB store middle table hhead

/-! ## Accepted statements -/

section Accepted

variable {parseSql : JString → Option (ParsedStatement τ)}
  {boundSql : BoundSql} {parsed : ParsedStatement τ} {tables : List τ}

/-- The tables that are moved are the references that are not hidden. -/
theorem mem_tables_iff
    (r : References)
    (haccepts : createParser parseSql boundSql.sql = .ok (parsed, tables))
    (t : τ) :
    t ∈ tables ↔
      t ∈ parsed.statement.tables r ∧ t ∉ parsed.statement.hidden r := by
  have hfound := createParser_eq_ok haccepts
  have hcount := Statement.count_getTables r t hfound
  have honce := List.nodup_iff_count_le_one.mp (parsed.fresh r) t
  have htables : t ∈ tables ↔ 0 < tables.count t := List.count_pos_iff.symm
  have hhidden : t ∈ parsed.statement.hidden r ↔
      0 < (parsed.statement.hidden r).count t := List.count_pos_iff.symm
  have hrefs : t ∈ parsed.statement.tables r ↔
      0 < (parsed.statement.tables r).count t := List.count_pos_iff.symm
  rw [htables, hhidden, hrefs]
  omega

theorem mem_tables_of_hidden
    (r : References)
    (haccepts : createParser parseSql boundSql.sql = .ok (parsed, tables))
    {t : τ}
    (hhidden : t ∈ parsed.statement.hidden r) :
    t ∈ parsed.statement.tables r := by
  have hfound := createParser_eq_ok haccepts
  have hcount := Statement.count_getTables r t hfound
  have hpos := List.count_pos_iff.mpr hhidden
  apply List.count_pos_iff.mp
  omega

theorem tables_nodup
    (haccepts : createParser parseSql boundSql.sql = .ok (parsed, tables)) :
    tables.Nodup := by
  have hfound := createParser_eq_ok haccepts
  apply List.nodup_iff_count_le_one.mpr
  intro t
  have hcount := Statement.count_getTables .sources t hfound
  have honce := List.nodup_iff_count_le_one.mp (parsed.fresh .sources) t
  omega

/-- With a shard, the found tables are in it and the others are unchanged. -/
theorem intercept_yields
    {shard : List JString}
    (table2DB : Table2DB)
    (haccepts : createParser parseSql boundSql.sql = .ok (parsed, tables))
    (hshard : boundSql.Yields shard) :
    intercept parseSql table2DB boundSql =
      .ok { parsed with
        table := fun t =>
          if t ∈ tables then (parsed.table t).inShard table2DB shard
          else parsed.table t } := by
  unfold intercept
  rw [haccepts]
  simp only [bind, Except.bind,
    shardTables_yields hshard table2DB (tables_nodup haccepts)]
  rfl

/-- Without a shard a statement passes only when no table is found. -/
theorem intercept_fails
    (table2DB : Table2DB)
    (haccepts : createParser parseSql boundSql.sql = .ok (parsed, tables))
    (hnone : ∀ shard, ¬ boundSql.Yields shard)
    (htables : tables ≠ [])
    (next : ParsedStatement τ) :
    intercept parseSql table2DB boundSql ≠ .ok next := by
  intro hrun
  unfold intercept at hrun
  rw [haccepts] at hrun
  obtain ⟨result, hresult, hrun⟩ := except_bind_eq_ok hrun
  injection hresult with hresult
  subst hresult
  obtain ⟨store, hstore, hrun⟩ := except_bind_eq_ok hrun
  exact shardTables_fails hnone table2DB htables parsed.table store hstore

theorem intercept_nil
    (table2DB : Table2DB)
    (haccepts : createParser parseSql boundSql.sql = .ok (parsed, [])) :
    intercept parseSql table2DB boundSql = .ok parsed := by
  unfold intercept
  rw [haccepts]
  rfl

end Accepted

/-! ## Two statements of the application -/

/-- The map that `MyBatisConfig` sets. -/
def payOrderTable2DB : Table2DB :=
  fun key =>
    if key = java "t_pay_order" then some (some (java "pay_order")) else none

def logicTable (name : String) : TableData :=
  { schemaName := none, name := java name }

/-- `select Fuid from t_pay_order where Fpay_order_id = ?`. -/
def payOrderQuery (table : Nat) : SelectBody Nat :=
  .plainSelect [] [.selectExpressionItem (.column none (java "Fuid"))] []
    (some (.table table none)) []
    (some (.binary .equalsTo (.column none (java "Fpay_order_id"))
      (.leaf .jdbcParameter (java "?"))))
    none [] [] none none []

def selectByPrimaryKey : ParsedStatement Nat :=
  { statement := .select { selectBody := payOrderQuery 0, withItemsList := [] }
    table := fun _ => logicTable "t_pay_order"
    fresh := by
      intro r
      cases r <;> decide }

/-- The parameter is the order number alone. -/
def selectByPrimaryKeySql (payOrderId : String) : BoundSql :=
  { sql := java "select Fuid from t_pay_order where Fpay_order_id = ?"
    parameterObject := some
      { cls := .string
        text := .ok (some (java payOrderId))
        asMap := none
        propertyDescriptors := .ok none }
    parameterMappings := some [java "payOrderId"] }

theorem selectByPrimaryKeySql_yields :
    (selectByPrimaryKeySql "CPO2017031422200222").Yields
      [java "00", java "22", java "2"] := by
  exact ⟨_, rfl, rfl⟩

/-- `insert into person (name, age) values (?, ?)`. -/
def insertPerson : ParsedStatement Nat :=
  { statement := .insert
      { table := 0
        columns := [.column none (java "name"), .column none (java "age")]
        itemsList := some (.expressionList
          [.leaf .jdbcParameter (java "?"), .leaf .jdbcParameter (java "?")])
        select := none
        setColumns := []
        setExpressions := []
        duplicateUpdateColumns := []
        duplicateUpdateExpressions := []
        returning := [] }
    table := fun _ => logicTable "person"
    fresh := by
      intro r
      cases r <;> decide }

/-- The parameter is a `Person`, which has no user and no order number. -/
def insertPersonSql : BoundSql :=
  { sql := java "insert into person (name, age) values (?, ?)"
    parameterObject := some
      { cls := .other (java "com.clpsz.test.single.person.domain.Person")
        text := .ok none
        asMap := none
        propertyDescriptors := .ok (some
          [{ name := java "age",
             readMethod := some (.ok (some (.number .int 22))) },
            { name := java "name",
              readMethod := some (.ok (some (.string (java "himme44")))) }]) }
    parameterMappings := some [java "name", java "age"] }

/-! ## Completeness of the rewriting -/

/-- The name of the table is a key of `table2DB`. -/
def Registered (table2DB : Table2DB) (data : TableData) : Prop :=
  (table2DB data.name).isSome

/-- No registered table of a statement has kept its logical name. -/
def Rewritten
    (r : References)
    (table2DB : Table2DB)
    (parsed next : ParsedStatement τ) : Prop :=
  ∀ t ∈ next.statement.tables r, Registered table2DB (parsed.table t) →
    (next.table t).name ≠ (parsed.table t).name

/-- The rewriting is complete exactly when no registered table stands below
an empty visit method. -/
theorem rewriting_complete
    (r : References)
    {parseSql : JString → Option (ParsedStatement τ)}
    {table2DB : Table2DB}
    {boundSql : BoundSql}
    {parsed : ParsedStatement τ}
    {tables : List τ}
    {shard : List JString}
    (haccepts : createParser parseSql boundSql.sql = .ok (parsed, tables))
    (hshard : boundSql.Yields shard) :
    (∃ next, intercept parseSql table2DB boundSql = .ok next ∧
      Rewritten r table2DB parsed next) ↔
    ∀ t ∈ parsed.statement.hidden r,
      ¬ Registered table2DB (parsed.table t) := by
  have hrun := intercept_yields table2DB haccepts hshard
  constructor
  · intro hcomplete t hhidden hregistered
    obtain ⟨next, hnext, hrewritten⟩ := hcomplete
    rw [hrun] at hnext
    injection hnext with hnext
    subst hnext
    have hreference := mem_tables_of_hidden r haccepts hhidden
    have hunmoved : t ∉ tables := by
      intro hfound
      exact ((mem_tables_iff r haccepts t).mp hfound).2 hhidden
    apply hrewritten t hreference hregistered
    simp [hunmoved]
  · intro hclear
    refine ⟨_, hrun, ?_⟩
    intro t hreference hregistered
    have hvisible : t ∉ parsed.statement.hidden r := by
      intro hhidden
      exact hclear t hhidden hregistered
    have hfound : t ∈ tables :=
      (mem_tables_iff r haccepts t).mpr ⟨hreference, hvisible⟩
    simp only [if_pos hfound]
    exact TableData.inShard_name_ne table2DB shard (parsed.table t)

theorem rewriting_complete_selectByPrimaryKey :
    (∃ next, intercept (fun _ => some selectByPrimaryKey) payOrderTable2DB
        (selectByPrimaryKeySql "CPO2017031422200222") = .ok next ∧
      Rewritten .qualified payOrderTable2DB selectByPrimaryKey next) ↔
    ∀ t ∈ selectByPrimaryKey.statement.hidden .qualified,
      ¬ Registered payOrderTable2DB (selectByPrimaryKey.table t) := by
  have haccepts : createParser (fun _ => some selectByPrimaryKey)
      (selectByPrimaryKeySql "CPO2017031422200222").sql =
        .ok (selectByPrimaryKey, [0]) := rfl
  exact rewriting_complete .qualified haccepts selectByPrimaryKeySql_yields

/-- The branches of a union are not visited. -/
def unionOfPayOrders : ParsedStatement Nat :=
  { statement := .select
      { selectBody :=
          .setOperationList [payOrderQuery 0, payOrderQuery 1] [] []
        withItemsList := [] }
    table := fun _ => logicTable "t_pay_order"
    fresh := by
      intro r
      cases r <;> decide }

theorem not_rewriting_complete :
    ¬ ∀ (parseSql : JString → Option (ParsedStatement Nat))
      (table2DB : Table2DB) (boundSql : BoundSql)
      (parsed : ParsedStatement Nat) (tables : List Nat)
      (shard : List JString),
      createParser parseSql boundSql.sql = .ok (parsed, tables) →
      boundSql.Yields shard →
      ∃ next, intercept parseSql table2DB boundSql = .ok next ∧
        Rewritten .sources table2DB parsed next := by
  intro hcomplete
  obtain ⟨next, hnext, hrewritten⟩ := hcomplete (fun _ => some unionOfPayOrders)
    payOrderTable2DB (selectByPrimaryKeySql "CPO2017031422200222")
    unionOfPayOrders [] _ rfl selectByPrimaryKeySql_yields
  have hrun : intercept (fun _ => some unionOfPayOrders) payOrderTable2DB
      (selectByPrimaryKeySql "CPO2017031422200222") =
        .ok unionOfPayOrders := intercept_nil payOrderTable2DB rfl
  rw [hrun] at hnext
  injection hnext with hnext
  subst hnext
  have hreference : 0 ∈ unionOfPayOrders.statement.tables .sources := by
    decide
  have hregistered : Registered payOrderTable2DB
      (unionOfPayOrders.table 0) := by
    unfold Registered
    decide
  exact hrewritten 0 hreference hregistered rfl

/-! ## Unregistered tables -/

/-- The unregistered tables keep their name and schema, and a statement
without registered tables passes unchanged. -/
def LeavesAlone
    (r : References)
    (table2DB : Table2DB)
    (parsed : ParsedStatement τ)
    (result : Except Thrown (ParsedStatement τ)) : Prop :=
  (∀ next, result = .ok next → ∀ t ∈ parsed.statement.tables r,
    ¬ Registered table2DB (parsed.table t) → next.table t = parsed.table t) ∧
  ((∀ t ∈ parsed.statement.tables r,
    ¬ Registered table2DB (parsed.table t)) → result = .ok parsed)

section LeavesAlone

variable {parseSql : JString → Option (ParsedStatement τ)}
  {table2DB : Table2DB} {boundSql : BoundSql} {parsed : ParsedStatement τ}
  {tables : List τ}

theorem leavesAlone_of_yields
    (r : References)
    {shard : List JString}
    (haccepts : createParser parseSql boundSql.sql = .ok (parsed, tables))
    (hshard : boundSql.Yields shard) :
    LeavesAlone r table2DB parsed (intercept parseSql table2DB boundSql) ↔
      ∀ t ∈ tables, Registered table2DB (parsed.table t) := by
  have hrun := intercept_yields table2DB haccepts hshard
  have hmoved := fun t => mem_tables_iff r haccepts t
  constructor
  · intro halone t hfound
    by_contra hunregistered
    have hkept := halone.1 _ hrun t ((hmoved t).mp hfound).1 hunregistered
    simp only [if_pos hfound] at hkept
    apply TableData.inShard_name_ne table2DB shard (parsed.table t)
    exact congrArg TableData.name hkept
  · intro hregistered
    constructor
    · intro next hnext t hreference hunregistered
      rw [hrun] at hnext
      injection hnext with hnext
      subst hnext
      have hunmoved : t ∉ tables := by
        intro hfound
        exact hunregistered (hregistered t hfound)
      simp [hunmoved]
    · intro hall
      have hnil : tables = [] := by
        apply List.eq_nil_iff_forall_not_mem.mpr
        intro t hfound
        exact hall t ((hmoved t).mp hfound).1 (hregistered t hfound)
      subst hnil
      exact intercept_nil table2DB haccepts

theorem leavesAlone_of_nil
    (r : References)
    (haccepts : createParser parseSql boundSql.sql = .ok (parsed, [])) :
    LeavesAlone r table2DB parsed
      (intercept parseSql table2DB boundSql) := by
  have hrun := intercept_nil table2DB haccepts
  constructor
  · intro next hnext t hreference hunregistered
    rw [hrun] at hnext
    injection hnext with hnext
    rw [← hnext]
  · intro hall
    exact hrun

theorem leavesAlone_of_fails
    (r : References)
    (haccepts : createParser parseSql boundSql.sql = .ok (parsed, tables))
    (hnone : ∀ shard, ¬ boundSql.Yields shard)
    (htables : tables ≠ []) :
    LeavesAlone r table2DB parsed (intercept parseSql table2DB boundSql) ↔
      ∃ t ∈ parsed.statement.tables r,
        Registered table2DB (parsed.table t) := by
  have hfails := intercept_fails table2DB haccepts hnone htables
  constructor
  · intro halone
    by_contra hclear
    apply hfails parsed
    apply halone.2
    intro t hreference hregistered
    exact hclear ⟨t, hreference, hregistered⟩
  · intro hregistered
    obtain ⟨t, hreference, hregistered⟩ := hregistered
    constructor
    · intro next hnext
      exact absurd hnext (hfails next)
    · intro hall
      exact absurd hregistered (hall t hreference)

end LeavesAlone

/-- Unregistered tables are left alone exactly when none of them is found, or
when the statement fails for want of a shard and names a registered table. -/
theorem unregistered_left_alone
    (r : References)
    {parseSql : JString → Option (ParsedStatement τ)}
    {table2DB : Table2DB}
    {boundSql : BoundSql}
    {parsed : ParsedStatement τ}
    {tables : List τ}
    (haccepts : createParser parseSql boundSql.sql = .ok (parsed, tables)) :
    LeavesAlone r table2DB parsed (intercept parseSql table2DB boundSql) ↔
      (∀ t ∈ parsed.statement.tables r, t ∉ parsed.statement.hidden r →
        Registered table2DB (parsed.table t)) ∨
      ((∀ shard, ¬ boundSql.Yields shard) ∧
        ∃ t ∈ parsed.statement.tables r,
          Registered table2DB (parsed.table t)) := by
  have hvisible :
      (∀ t ∈ parsed.statement.tables r, t ∉ parsed.statement.hidden r →
        Registered table2DB (parsed.table t)) ↔
      ∀ t ∈ tables, Registered table2DB (parsed.table t) := by
    simp only [mem_tables_iff r haccepts, and_imp]
  rw [hvisible]
  by_cases hyields : ∃ shard, boundSql.Yields shard
  · obtain ⟨shard, hshard⟩ := hyields
    have hnot : ¬ ∀ shard, ¬ boundSql.Yields shard := by
      intro hnone
      exact hnone shard hshard
    rw [leavesAlone_of_yields r haccepts hshard]
    simp [hnot]
  · have hnone : ∀ shard, ¬ boundSql.Yields shard := by
      intro shard hshard
      exact hyields ⟨shard, hshard⟩
    by_cases hnil : tables = []
    · subst hnil
      have halone : LeavesAlone r table2DB parsed
          (intercept parseSql table2DB boundSql) :=
        leavesAlone_of_nil r haccepts
      simp [halone]
    · obtain ⟨first, hfirst⟩ := List.exists_mem_of_ne_nil tables hnil
      have hreference := ((mem_tables_iff r haccepts first).mp hfirst).1
      rw [leavesAlone_of_fails r haccepts hnone hnil]
      constructor
      · intro hregistered
        exact Or.inr ⟨hnone, hregistered⟩
      · intro hcondition
        cases hcondition with
        | inl hall => exact ⟨first, hreference, hall first hfirst⟩
        | inr hregistered => exact hregistered.2

theorem unregistered_left_alone_selectByPrimaryKey :
    LeavesAlone .sources payOrderTable2DB selectByPrimaryKey
        (intercept (fun _ => some selectByPrimaryKey) payOrderTable2DB
          (selectByPrimaryKeySql "CPO2017031422200222")) ↔
      (∀ t ∈ selectByPrimaryKey.statement.tables .sources,
        t ∉ selectByPrimaryKey.statement.hidden .sources →
          Registered payOrderTable2DB (selectByPrimaryKey.table t)) ∨
      ((∀ shard, ¬ (selectByPrimaryKeySql "CPO2017031422200222").Yields
          shard) ∧
        ∃ t ∈ selectByPrimaryKey.statement.tables .sources,
          Registered payOrderTable2DB (selectByPrimaryKey.table t)) := by
  have haccepts : createParser (fun _ => some selectByPrimaryKey)
      (selectByPrimaryKeySql "CPO2017031422200222").sql =
        .ok (selectByPrimaryKey, [0]) := rfl
  exact unregistered_left_alone .sources haccepts

theorem not_unregistered_left_alone :
    ¬ ∀ (parseSql : JString → Option (ParsedStatement Nat))
      (table2DB : Table2DB) (boundSql : BoundSql)
      (parsed : ParsedStatement Nat) (tables : List Nat),
      createParser parseSql boundSql.sql = .ok (parsed, tables) →
      LeavesAlone .sources table2DB parsed
        (intercept parseSql table2DB boundSql) := by
  intro hleaves
  have halone := hleaves (fun _ => some insertPerson) payOrderTable2DB
    insertPersonSql insertPerson [0] rfl
  have hunregistered : ∀ t ∈ insertPerson.statement.tables .sources,
      ¬ Registered payOrderTable2DB (insertPerson.table t) := by
    intro t hreference hregistered
    exact Bool.false_ne_true hregistered
  have hrun : intercept (fun _ => some insertPerson) payOrderTable2DB
      insertPersonSql =
        .error (.illegalArgument (java "入参没有分库分表标识")) := rfl
  rw [hrun] at halone
  have hpassed := halone.2 hunregistered
  simp at hpassed

/-! ## Agreement of the routes -/

/-- Two statements in one shard give tables of one name the same place. -/
theorem intercept_same_shard
    {parseSql : JString → Option (ParsedStatement τ)}
    {writing reading : BoundSql}
    {written found : ParsedStatement τ}
    {writtenTables foundTables : List τ}
    {shard : List JString}
    {t u : τ}
    (table2DB : Table2DB)
    (hwritten : createParser parseSql writing.sql =
      .ok (written, writtenTables))
    (hfound : createParser parseSql reading.sql = .ok (found, foundTables))
    (hwriting : writing.Yields shard)
    (hreading : reading.Yields shard)
    (ht : t ∈ writtenTables)
    (hu : u ∈ foundTables)
    (hname : (written.table t).name = (found.table u).name) :
    ∃ stored selected,
      intercept parseSql table2DB writing = .ok stored ∧
      intercept parseSql table2DB reading = .ok selected ∧
      stored.table t = selected.table u := by
  have hstored := intercept_yields table2DB hwritten hwriting
  have hselected := intercept_yields table2DB hfound hreading
  refine ⟨_, _, hstored, hselected, ?_⟩
  simp only [if_pos ht, if_pos hu, TableData.inShard, hname]

/-- A user's number and the order numbers made from it lead to one shard, and
so to the same tables. -/
theorem routes_agree
    {uid : Nat}
    (huid : uid < 10 ^ 9)
    (p : JString) :
    ∃ shard : List JString,
      (∀ (params : ParamsMap) (obj : JavaObject),
        params (java "uid") = .ok (some obj) →
        obj.text = .ok (some (longToString uid)) →
          parse params = .ok shard) ∧
      (∀ (key : JString) (obj : JavaObject), key ∈ orderKeys →
        obj.text = .ok (some (orderId p uid)) →
          parse (ParamsMap.empty.put key (some obj)) = .ok shard) ∧
      (∀ (parseSql : JString → Option (ParsedStatement τ))
        (table2DB : Table2DB) (writing reading : BoundSql)
        (params : ParamsMap) (key : JString) (user order : JavaObject)
        (written found : ParsedStatement τ)
        (writtenTables foundTables : List τ),
        paresParams writing = .ok params →
        params (java "uid") = .ok (some user) →
        user.text = .ok (some (longToString uid)) →
        paresParams reading = .ok (ParamsMap.empty.put key (some order)) →
        key ∈ orderKeys →
        order.text = .ok (some (orderId p uid)) →
        createParser parseSql writing.sql = .ok (written, writtenTables) →
        createParser parseSql reading.sql = .ok (found, foundTables) →
        ∀ t ∈ writtenTables, ∀ u ∈ foundTables,
          (written.table t).name = (found.table u).name →
          ∃ stored selected,
            intercept parseSql table2DB writing = .ok stored ∧
            intercept parseSql table2DB reading = .ok selected ∧
            stored.table t = selected.table u) := by
  have hid : ∀ (key : JString) (obj : JavaObject), key ∈ orderKeys →
      obj.text = .ok (some (orderId p uid)) →
        parse (ParamsMap.empty.put key (some obj)) =
          .ok (userShard uid) := by
    intro key obj hkey htext
    rw [parse_orderId hkey htext (orderId_ne_nil p uid)]
    exact shardByRight5_orderId p uid
  refine ⟨userShard uid, ?_, hid, ?_⟩
  · intro params obj hget htext
    exact parse_uid hget htext huid
  · intro parseSql table2DB writing reading params key user order written
      found writtenTables foundTables hparams hget huser hreading hkey horder
      hwritten hfound t ht u hu hname
    have hshard := parse_uid hget huser huid
    have hshard' := hid key order hkey horder
    exact intercept_same_shard table2DB hwritten hfound
      ⟨params, hparams, hshard⟩ ⟨_, hreading, hshard'⟩ ht hu hname

theorem routes_agree_testUser :
    parse (ParamsMap.empty.put (java "uid") (some (.number .int 30222))) =
      parse (ParamsMap.empty.put (java "payOrderId")
        (some (.string (java "CPO2017031422200222")))) := by
  have huid : 30222 < 10 ^ 9 := by omega
  obtain ⟨shard, hnumber, horder, hplace⟩ :=
    routes_agree (τ := Nat) huid (java "CPO20170314222")
  have hleft := hnumber
    (ParamsMap.empty.put (java "uid") (some (.number .int 30222)))
    (.number .int 30222) rfl rfl
  have hright := horder (java "payOrderId")
    (.string (java "CPO2017031422200222")) (by decide) rfl
  rw [hleft, hright]

end Sharding
end ClpszDemos
