import Mathlib.Tactic
import ClpszDemos.JsText
import ClpszDemos.ShardRewriting

/-!
# The query tool and the router

The query tool in `index.js` builds the name of a sharded table from a user
number or from the last five characters of an order number.  It is compared
with the strategy that the plugin uses.
-/

namespace ClpszDemos
namespace Sharding

open JavaText JsText

/-! ## `preparePostData` -/

/-- The variables of the sharded branch; `none` is `undefined`. -/
structure ShardParts where
  set : Option JString
  dbSeq : Option JString
  tblSeq : Option JString
  deriving DecidableEq

def shardParts (key shardingBy : JString) : ShardParts :=
  if shardingBy = java "right5" then
    { set := some (substr key (-5) 2)
      dbSeq := some (substr key (-3) 2)
      tblSeq := some (substr key (-1) 1) }
  else if shardingBy = java "uid" then
    { set := some (if geNumber key 10000000 then java "01" else java "00")
      dbSeq := some (substr key (-3) 2)
      tblSeq := some (substr key (-1) 1) }
  else
    { set := none, dbSeq := none, tblSeq := none }

/-- A variable in a concatenation. -/
def variableText : Option JString → JString
  | none => java "undefined"
  | some s => s

/-- The table of the query. -/
def queryTable (db tbl key shardingBy : JString) : JString :=
  if shardingBy ≠ java "noSharding" then
    let parts := shardParts key shardingBy
    db ++ java "_" ++ variableText parts.set ++ java "_" ++
      variableText parts.dbSeq ++ java "_db." ++ tbl ++ java "_" ++
      variableText parts.tblSeq
  else
    db ++ java "_db." ++ tbl

/-- The body of the request, for the `stringify` of Node. -/
def preparePostData {β : Type}
    (stringify : List (JString × JString) → β)
    (mysqlType db tbl keyName key shardingBy : JString) : β :=
  let table := queryTable db tbl key shardingBy
  let sql := java "select * from " ++ table ++ java " where " ++ keyName ++
    java " = '" ++ key ++ java "'"
  stringify [(java "mysql_type", mysqlType), (java "sql", sql)]

/-! ## Agreement -/

/-- The name of a table in the text of a statement. -/
def TableData.fullName (data : TableData) : JString :=
  match data.schemaName with
  | none => data.name
  | some schema => schema ++ java "." ++ data.name

/-- The strategy and the tool find the same set, database and table. -/
def PartsAgree (key shardingBy : JString) (params : ParamsMap) : Prop :=
  ∃ set db tbl, parse params = .ok [set, db, tbl] ∧
    shardParts key shardingBy =
      { set := some set, dbSeq := some db, tblSeq := some tbl }

/-- In every statement with these parameters the plugin gives a registered
table the name that the tool uses. -/
def NamesAgree (key shardingBy : JString) (params : ParamsMap) : Prop :=
  ∀ (τ : Type) [DecidableEq τ] (parseSql : JString → Option (ParsedStatement τ))
    (table2DB : Table2DB) (boundSql : BoundSql) (parsed : ParsedStatement τ)
    (tables : List τ),
    createParser parseSql boundSql.sql = .ok (parsed, tables) →
    paresParams boundSql = .ok params →
    ∃ next, intercept parseSql table2DB boundSql = .ok next ∧
      ∀ t ∈ tables, ∀ db, table2DB (parsed.table t).name = some (some db) →
        (next.table t).fullName =
          queryTable db (parsed.table t).name key shardingBy

def RoutersAgree (key shardingBy : JString) (params : ParamsMap) : Prop :=
  PartsAgree key shardingBy params ∧ NamesAgree key shardingBy params

/-- The name follows from the three parts. -/
theorem namesAgree_of_partsAgree
    {key shardingBy : JString}
    {params : ParamsMap}
    (hsharded : shardingBy ≠ java "noSharding")
    (hparts : PartsAgree key shardingBy params) :
    NamesAgree key shardingBy params := by
  obtain ⟨set, db, tbl, hparse, hshard⟩ := hparts
  intro τ _ parseSql table2DB boundSql parsed tables haccepts hparams
  have hyields : boundSql.Yields [set, db, tbl] := ⟨params, hparams, hparse⟩
  refine ⟨_, intercept_yields table2DB haccepts hyields, ?_⟩
  intro t hfound logicDB hregistered
  have hseparator : java "_db." = java "_db" ++ java "." := rfl
  simp only [if_pos hfound, TableData.fullName, TableData.inShard,
    hregistered, queryTable, if_pos hsharded, hshard, hseparator]
  simp [concatText, variableText]

/-- Where the names agree, the statement that is posted reads the table to which
the plugin sends a statement with these parameters. -/
theorem preparePostData_of_namesAgree
    {β τ : Type} [DecidableEq τ]
    {key shardingBy : JString}
    {params : ParamsMap}
    (hnames : NamesAgree key shardingBy params)
    {parseSql : JString → Option (ParsedStatement τ)}
    {table2DB : Table2DB}
    {boundSql : BoundSql}
    {parsed : ParsedStatement τ}
    {tables : List τ}
    (haccepts : createParser parseSql boundSql.sql = .ok (parsed, tables))
    (hparams : paresParams boundSql = .ok params)
    (stringify : List (JString × JString) → β)
    (mysqlType keyName : JString) :
    ∃ next, intercept parseSql table2DB boundSql = .ok next ∧
      ∀ t ∈ tables, ∀ db, table2DB (parsed.table t).name = some (some db) →
        preparePostData stringify mysqlType db (parsed.table t).name keyName key
            shardingBy =
          stringify [(java "mysql_type", mysqlType),
            (java "sql", java "select * from " ++ (next.table t).fullName ++
              java " where " ++ keyName ++ java " = '" ++ key ++ java "'")] := by
  obtain ⟨next, hnext, hagree⟩ :=
    hnames τ parseSql table2DB boundSql parsed tables haccepts hparams
  refine ⟨next, hnext, ?_⟩
  intro t hfound db hregistered
  rw [hagree t hfound db hregistered]
  rfl

theorem routersAgree_iff
    {key shardingBy : JString}
    {params : ParamsMap}
    (hsharded : shardingBy ≠ java "noSharding") :
    RoutersAgree key shardingBy params ↔ PartsAgree key shardingBy params := by
  constructor
  · intro hagree
    exact hagree.1
  · intro hparts
    exact ⟨hparts, namesAgree_of_partsAgree hsharded hparts⟩

/-! ## Order numbers -/

/-- A key of five characters or more, cut at its end. -/
theorem exists_right5
    {key : JString}
    (hkey : 5 ≤ key.length) :
    ∃ p set db table : JString, key = p ++ (set ++ db ++ table) ∧
      set.length = 2 ∧ db.length = 2 ∧ table.length = 1 := by
  refine ⟨key.take (key.length - 5), (key.drop (key.length - 5)).take 2,
    ((key.drop (key.length - 5)).drop 2).take 2,
    (key.drop (key.length - 5)).drop 4, ?_, ?_, ?_, ?_⟩
  · have hrest : (key.drop (key.length - 5)).drop 4 =
        ((key.drop (key.length - 5)).drop 2).drop 2 := by
      rw [List.drop_drop, List.drop_drop, List.drop_drop]
    rw [hrest, List.append_assoc, List.take_append_drop, List.take_append_drop,
      List.take_append_drop]
  · rw [List.length_take, List.length_drop]
    omega
  · rw [List.length_take, List.length_drop, List.length_drop]
    omega
  · rw [List.length_drop, List.length_drop]
    omega

theorem partsAgree_right5
    {key : JString}
    (hkey : 5 ≤ key.length)
    {order : JavaObject}
    (horder : order.text = .ok (some key)) :
    PartsAgree key (java "right5")
      (ParamsMap.empty.put (java "payOrderId") (some order)) := by
  have hne : key ≠ [] := List.ne_nil_of_length_pos (by omega)
  obtain ⟨p, set, db, table, hcut, hset, hdb, htable⟩ := exists_right5 hkey
  have hparse := parse_orderId (show java "payOrderId" ∈ orderKeys by decide)
    horder hne
  have hright : shardByRight5 (some key) = .ok [set, db, table] := by
    rw [hcut]
    exact shardByRight5_append p hset hdb htable
  have hsetPart : substr key (-5) 2 = set := by
    have hslice : substr (p ++ (set ++ (db ++ table))) (-5) set.length = set :=
      substr_append p set (db ++ table) (by simp [hset, hdb, htable]) (by omega)
    rw [hset] at hslice
    rw [hcut, List.append_assoc]
    exact hslice
  have hdbPart : substr key (-3) 2 = db := by
    have hslice : substr (p ++ set ++ (db ++ table)) (-3) db.length = db :=
      substr_append (p ++ set) db table (by simp [hdb, htable]) (by omega)
    rw [hdb, List.append_assoc, ← List.append_assoc set] at hslice
    rw [hcut]
    exact hslice
  have htablePart : substr key (-1) 1 = table := by
    have hslice : substr (p ++ (set ++ db) ++ (table ++ [])) (-1)
        table.length = table :=
      substr_append (p ++ (set ++ db)) table [] (by simp [htable])
        (by simp [htable])
    rw [htable, List.append_nil, List.append_assoc] at hslice
    rw [hcut]
    exact hslice
  refine ⟨set, db, table, hparse.trans hright, ?_⟩
  unfold shardParts
  rw [if_pos rfl, hsetPart, hdbPart, htablePart]

/-! ## User numbers -/

theorem zeroPadded_congr
    {k m n : ℕ}
    (hmod : m % 10 ^ k = n % 10 ^ k) :
    zeroPadded k m = zeroPadded k n := by
  induction k generalizing m n with
  | zero => rfl
  | succ k ih =>
      have hlast : m % 10 = n % 10 := by
        have hdvd : 10 ∣ 10 ^ (k + 1) := Dvd.intro_left (10 ^ k) rfl
        rw [← Nat.mod_mod_of_dvd m hdvd, hmod, Nat.mod_mod_of_dvd n hdvd]
      have hfront : m / 10 % 10 ^ k = n / 10 % 10 ^ k := by
        rw [← Nat.mod_mul_right_div_self, ← Nat.mod_mul_right_div_self,
          ← Nat.pow_succ', hmod]
      rw [zeroPadded, zeroPadded, hlast, ih hfront]

theorem digitsNumber_zeroPadded
    (k n : ℕ) :
    digitsNumber (zeroPadded k n) = n % 10 ^ k := by
  induction k generalizing n with
  | zero => simp [zeroPadded, digitsNumber, Nat.mod_one]
  | succ k ih =>
      have hdigit : n % 10 < 10 := Nat.mod_lt n (by omega)
      rw [zeroPadded, digitsNumber_append, ih, (digitUnit_sub hdigit).2,
        Nat.pow_succ', Nat.mod_mul]
      omega

/-- The last digit of a printed number. -/
theorem decimal_concat
    (n : ℕ) :
    ∃ p, decimal n = p ++ [digitUnit (n % 10)] := by
  by_cases hsmall : n < 10
  · have hrem : n % 10 = n := Nat.mod_eq_of_lt hsmall
    refine ⟨[], ?_⟩
    rw [decimal_of_lt hsmall, hrem]
    rfl
  · exact ⟨decimal (n / 10), decimal_of_ge (by omega)⟩

/-- A number of three digits or more ends with three digits. -/
theorem decimal_ends
    {n : ℕ}
    (hn : 100 ≤ n) :
    ∃ p, decimal n = p ++ (zeroPadded 2 (n / 10) ++ zeroPadded 1 n) := by
  obtain ⟨p, hp⟩ := decimal_concat (n / 10 / 10)
  refine ⟨p, ?_⟩
  rw [decimal_of_ge (by omega), decimal_of_ge (by omega), hp]
  simp [zeroPadded]

theorem length_decimal_le
    {n : ℕ}
    (hn : n < 100) :
    (decimal n).length ≤ 2 := by
  by_cases hsmall : n < 10
  · rw [decimal_of_lt hsmall]
    simp
  · rw [decimal_of_ge (by omega), decimal_of_lt (by omega)]
    simp

section User

variable {uid : ℕ}

theorem substr_user
    (huid : 100 ≤ uid) :
    substr (decimal uid) (-3) 2 = zeroPadded 2 (uid % 1000 / 10) ∧
      substr (decimal uid) (-1) 1 = zeroPadded 1 (uid % 1000) := by
  obtain ⟨p, hp⟩ := decimal_ends huid
  have hdb : zeroPadded 2 (uid % 1000 / 10) = zeroPadded 2 (uid / 10) := by
    apply zeroPadded_congr
    omega
  have htbl : zeroPadded 1 (uid % 1000) = zeroPadded 1 uid := by
    apply zeroPadded_congr
    omega
  rw [hp, hdb, htbl]
  constructor
  · have hslice := @substr_append p (zeroPadded 2 (uid / 10))
      (zeroPadded 1 uid) (-3) (by simp) (by simp)
    rw [length_zeroPadded] at hslice
    exact hslice
  · have hslice := @substr_append (p ++ zeroPadded 2 (uid / 10))
      (zeroPadded 1 uid) [] (-1) (by simp) (by simp)
    rw [length_zeroPadded, List.append_nil, List.append_assoc] at hslice
    exact hslice

/-- The printed number is too short for the slice. -/
theorem substr_user_short
    (huid : uid < 100) :
    substr (decimal uid) (-3) 2 ≠ zeroPadded 2 (uid % 1000 / 10) := by
  intro hslice
  have hlength := length_decimal_le huid
  rw [substr_short (by omega) (by omega), List.take_of_length_le hlength]
    at hslice
  have hnumber := congrArg digitsNumber hslice
  have hrem : uid % 1000 = uid := Nat.mod_eq_of_lt (by omega)
  rw [digitsNumber_decimal, digitsNumber_zeroPadded, hrem] at hnumber
  have hzero : uid = 0 := by omega
  rw [hzero] at hslice
  exact absurd hslice (by decide)

/-- The set that the tool computes is right for the first two sets. -/
theorem set_user_iff
    (huid : uid < 10 ^ 9) :
    (if geNumber (decimal uid) 10000000 then java "01" else java "00") =
        zeroPadded 2 (uid / 10000000) ↔
      uid < 2 * 10 ^ 7 := by
  rw [geNumber_decimal (by omega)]
  by_cases hlarge : 10000000 ≤ uid
  · rw [if_pos (decide_eq_true hlarge)]
    constructor
    · intro hset
      have hnumber := congrArg digitsNumber hset
      have hone : digitsNumber (java "01") = 1 := rfl
      rw [hone, digitsNumber_zeroPadded] at hnumber
      omega
    · intro hsmall
      have hone : uid / 10000000 = 1 := by omega
      rw [hone]
      rfl
  · have hzero : uid / 10000000 = 0 := by omega
    rw [if_neg (by simpa using hlarge), hzero]
    constructor
    · intro hset
      omega
    · intro hsmall
      rfl

theorem partsAgree_uid_iff
    (huid : uid < 10 ^ 9)
    {user : JavaObject}
    (huser : user.text = .ok (some (decimal uid))) :
    PartsAgree (decimal uid) (java "uid")
        (ParamsMap.empty.put (java "uid") (some user)) ↔
      100 ≤ uid ∧ uid < 2 * 10 ^ 7 := by
  have hprinted : user.text = .ok (some (longToString uid)) := by
    rw [longToString_of_nonneg (by omega)]
    exact huser
  have hparse : parse (ParamsMap.empty.put (java "uid") (some user)) =
      .ok (userShard uid) :=
    parse_uid (by simp [ParamsMap.put]) hprinted huid
  have hother : java "uid" ≠ java "right5" := by decide
  have hset := set_user_iff huid
  unfold PartsAgree shardParts
  rw [hparse, if_neg hother, if_pos rfl]
  constructor
  · rintro ⟨set, db, tbl, hshard, hparts⟩
    simp only [userShard, Except.ok.injEq, List.cons.injEq] at hshard
    simp only [ShardParts.mk.injEq, Option.some.injEq] at hparts
    rw [← hshard.1, ← hshard.2.1] at hparts
    constructor
    · by_contra hshort
      exact substr_user_short (by omega) hparts.2.1
    · exact hset.mp hparts.1
  · rintro ⟨hlong, hsmall⟩
    obtain ⟨hdb, htbl⟩ := substr_user hlong
    exact ⟨_, _, _, rfl, by rw [hset.mpr hsmall, hdb, htbl]⟩

end User

/-- The tool and the router agree on every order number, and on the user
numbers of at least three digits in the first two sets. -/
theorem routers_agree_iff
    {uid : ℕ}
    (huid : uid < 10 ^ 9)
    {key : JString}
    (hkey : 5 ≤ key.length)
    {user order : JavaObject}
    (huser : user.text = .ok (some (decimal uid)))
    (horder : order.text = .ok (some key)) :
    (RoutersAgree (decimal uid) (java "uid")
        (ParamsMap.empty.put (java "uid") (some user)) ↔
      100 ≤ uid ∧ uid < 2 * 10 ^ 7) ∧
    RoutersAgree key (java "right5")
      (ParamsMap.empty.put (java "payOrderId") (some order)) := by
  constructor
  · rw [routersAgree_iff (by decide)]
    exact partsAgree_uid_iff huid huser
  · rw [routersAgree_iff (by decide)]
    exact partsAgree_right5 hkey horder

theorem routers_agree_testUser :
    (RoutersAgree (java "30222") (java "uid")
        (ParamsMap.empty.put (java "uid") (some (.number .int 30222))) ↔
      100 ≤ 30222 ∧ 30222 < 2 * 10 ^ 7) ∧
    RoutersAgree (java "PPO20170303000052400555") (java "right5")
      (ParamsMap.empty.put (java "payOrderId")
        (some (.string (java "PPO20170303000052400555")))) := by
  have huid : 30222 < 10 ^ 9 := by omega
  have hkey : 5 ≤ (java "PPO20170303000052400555").length := by decide
  exact @routers_agree_iff 30222 huid _ hkey (.number .int 30222)
    (.string (java "PPO20170303000052400555")) rfl rfl

/-- A user of the third set. -/
theorem not_routers_agree :
    ¬ ∀ (uid : ℕ) (key : JString) (user order : JavaObject), uid < 10 ^ 9 →
      5 ≤ key.length → user.text = .ok (some (decimal uid)) →
      order.text = .ok (some key) →
      RoutersAgree (decimal uid) (java "uid")
          (ParamsMap.empty.put (java "uid") (some user)) ∧
        RoutersAgree key (java "right5")
          (ParamsMap.empty.put (java "payOrderId") (some order)) := by
  intro hagree
  have huid : 20000000 < 10 ^ 9 := by omega
  have huser := (hagree 20000000 (java "PPO20170303000052400555")
    (.number .int 20000000) (.string (java "PPO20170303000052400555")) huid
    (by decide) rfl rfl).1
  have hparts := (partsAgree_uid_iff huid rfl).mp huser.1
  omega

end Sharding
end ClpszDemos
