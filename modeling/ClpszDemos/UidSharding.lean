import Mathlib.Tactic
import ClpszDemos.JavaText

/-!
# The sharding strategy

`UidShardingStrategy` finds the shard of a statement from its parameters: from
the user's number when there is one, otherwise from the last five characters
of an order number.  The two ways agree on the order numbers of a user.
-/

namespace ClpszDemos
namespace Sharding

open JavaText

/-- The classes `int.class`, `boolean.class` and so on, and their boxes. -/
inductive Primitive
  | int
  | long
  | short
  | byte
  | float
  | double
  | boolean
  | char
  deriving DecidableEq

inductive JavaClass
  | primitive (p : Primitive)
  | boxed (p : Primitive)
  | string
  | other (className : JString)
  deriving DecidableEq

/-- A parameter value: its class and what its `toString` gives. -/
structure JavaObject where
  cls : JavaClass
  text : Except Thrown (Option JString)

/-- A boxed whole number. -/
def JavaObject.number (p : Primitive) (n : Int) : JavaObject :=
  { cls := .boxed p, text := .ok (some (longToString n)) }

def JavaObject.string (s : JString) : JavaObject :=
  { cls := .string, text := .ok (some s) }

/-- The `get` of a `Map<String, Object>`: `none` is null, and a map of
MyBatis may throw where it has no such key. -/
abbrev ParamsMap := JString → Except Thrown (Option JavaObject)

def ParamsMap.empty : ParamsMap :=
  fun _ => .ok none

def ParamsMap.put
    (params : ParamsMap)
    (key : JString)
    (value : Option JavaObject) : ParamsMap :=
  fun other => if other = key then .ok value else params other

/-! ## `UidShardingStrategy` -/

def uidDivNum : Int := 1000

def divNum : Int := 10000000

def getString (data : ParamsMap) (key : JString) :
    Except Thrown (Option JString) := do
  match ← data key with
  | none => return none
  | some obj => obj.text

def shardByUid (uid : Int) : Except Thrown (List JString) :=
  let setNum := uid.tdiv divNum
  if setNum < 0 ∨ setNum > 99 then
    .error (.illegalArgument (java "set超时预设范围" ++ longToString setNum))
  else
    let setNumStr := leftPad (longToString setNum) 2 48
    let table := uid.tmod uidDivNum
    let tableStr := longToString table
    let tableStr :=
      if tableStr.length < 3 then leftPad tableStr 3 48 else tableStr
    let dbNumStr := substring tableStr 0 2
    let tableNumStr := substring tableStr 2 3
    .ok [setNumStr, dbNumStr, tableNumStr]

def shardByRight5 : Option JString → Except Thrown (List JString)
  | none => .error .nullPointer
  | some key =>
      let shardId := substring key (key.length - 5) key.length
      let setNumStr := substring shardId 0 2
      let dbNumStr := substring shardId 2 4
      let tblNumStr := substring shardId 4 5
      .ok [setNumStr, dbNumStr, tblNumStr]

def parse (params : ParamsMap) : Except Thrown (List JString) := do
  let uidString ← getString params (java "uid")
  if isEmpty uidString = false then
    let uid ← parseLong uidString
    shardByUid uid
  else
    let payOrderId ← getString params (java "payOrderId")
    if isEmpty payOrderId = false then
      shardByRight5 payOrderId
    else
      let parentPayOrderId ← getString params (java "parentPayOrderId")
      if isEmpty parentPayOrderId = false then
        shardByRight5 parentPayOrderId
      else
        let parentOrderId ← getString params (java "parentOrderId")
        if isEmpty parentOrderId = false then
          shardByRight5 parentOrderId
        else
          .error (.illegalArgument (java "入参没有分库分表标识"))

/-! ## The shard of a user -/

/-- The set, the database and the table of a user's rows. -/
def userShard (uid : Nat) : List JString :=
  [zeroPadded 2 (uid / 10000000),
    zeroPadded 2 (uid % 1000 / 10),
    zeroPadded 1 (uid % 1000)]

/-- An order number of a user: after any text the set in two digits and the
remainder in three. -/
def orderId (p : JString) (uid : Nat) : JString :=
  p ++ (zeroPadded 2 (uid / 10 ^ 7) ++ zeroPadded 3 (uid % 1000))

theorem zeroPadded_three
    (n : Nat) :
    zeroPadded 3 n = zeroPadded 2 (n / 10) ++ zeroPadded 1 n := by
  rfl

/-- The printed remainder, padded only when it is short. -/
theorem padded_remainder
    {n : Nat}
    (hn : n < 1000) :
    (if (decimal n).length < 3 then leftPad (decimal n) 3 48 else decimal n) =
      zeroPadded 3 n := by
  have hpadded : leftPad (decimal n) 3 48 = zeroPadded 3 n :=
    leftPad_decimal hn
  by_cases hshort : (decimal n).length < 3
  · rw [if_pos hshort, hpadded]
  · have hfull : leftPad (decimal n) 3 48 = decimal n :=
      leftPad_of_length_le (by omega) 48
    rw [if_neg hshort, ← hpadded, hfull]

/-- A slice between two positions is the part of the string that lies there. -/
theorem substring_middle
    (a b c : JString)
    (start stop : Int)
    (hstart : start = a.length)
    (hstop : stop = a.length + b.length) :
    substring (a ++ b ++ c) start stop = b := by
  have hslice := substring_of_le (s := a ++ b ++ c)
    (Nat.le_add_right a.length b.length) (by simp)
  have hcast : stop = ((a.length + b.length : Nat) : Int) := by
    rw [hstop]
    omega
  rw [hstart, hcast, hslice, ← List.length_append, List.take_left,
    List.drop_left]

theorem shardByUid_user
    {uid : Nat}
    (huid : uid < 10 ^ 9) :
    shardByUid uid = .ok (userShard uid) := by
  have hset : (uid : Int).tdiv divNum = (uid / 10000000 : Nat) := by
    rfl
  have htable : (uid : Int).tmod uidDivNum = (uid % 1000 : Nat) := by
    rfl
  have hguard : ¬ (((uid / 10000000 : Nat) : Int) < 0 ∨
      ((uid / 10000000 : Nat) : Int) > 99) := by
    omega
  have hsetStr : leftPad (longToString (uid / 10000000 : Nat)) 2 48 =
      zeroPadded 2 (uid / 10000000) := by
    rw [longToString_of_nonneg (by omega)]
    apply leftPad_decimal
    omega
  have hprint : longToString (uid % 1000 : Nat) = decimal (uid % 1000) :=
    longToString_of_nonneg (by omega)
  have htableStr := padded_remainder (Nat.mod_lt uid (show 0 < 1000 by omega))
  have hdb : substring (zeroPadded 3 (uid % 1000)) 0 2 =
      zeroPadded 2 (uid % 1000 / 10) := by
    apply substring_middle [] _ (zeroPadded 1 (uid % 1000)) 0 2
    · simp
    · simp
  have htbl : substring (zeroPadded 3 (uid % 1000)) 2 3 =
      zeroPadded 1 (uid % 1000) := by
    have hmiddle := substring_middle (zeroPadded 2 (uid % 1000 / 10))
      (zeroPadded 1 (uid % 1000)) [] 2 3 (by simp) (by simp)
    rw [List.append_nil] at hmiddle
    exact hmiddle
  unfold shardByUid
  simp only [hset, htable, if_neg hguard, hsetStr, hprint, htableStr, hdb, htbl]
  rfl

/-- The last five characters of a key, cut after two, two and one. -/
theorem shardByRight5_append
    (p : JString)
    {set db table : JString}
    (hset : set.length = 2)
    (hdb : db.length = 2)
    (htable : table.length = 1) :
    shardByRight5 (some (p ++ (set ++ db ++ table))) =
      .ok [set, db, table] := by
  have hlength : (set ++ db ++ table).length = 5 := by simp [*]
  have hright : substring (p ++ (set ++ db ++ table))
      ((p ++ (set ++ db ++ table)).length - 5)
      (p ++ (set ++ db ++ table)).length = set ++ db ++ table := by
    have hmiddle := substring_middle p (set ++ db ++ table) []
      ((p ++ (set ++ db ++ table)).length - 5)
      (p ++ (set ++ db ++ table)).length
      (by simp [*]) (by simp)
    rw [List.append_nil] at hmiddle
    exact hmiddle
  have hset' : substring (set ++ db ++ table) 0 2 = set := by
    have hmiddle := substring_middle [] set (db ++ table) 0 2
      (by simp) (by simp [hset])
    simpa using hmiddle
  have hdb' : substring (set ++ db ++ table) 2 4 = db := by
    apply substring_middle
    · simp [hset]
    · simp [hset, hdb]
  have htable' : substring (set ++ db ++ table) 4 5 = table := by
    have hmiddle := substring_middle (set ++ db) table [] 4 5
      (by simp [*]) (by simp [*])
    rw [List.append_nil] at hmiddle
    exact hmiddle
  unfold shardByRight5
  simp only [hright, hset', hdb', htable']

theorem shardByRight5_orderId
    (p : JString)
    (uid : Nat) :
    shardByRight5 (some (orderId p uid)) = .ok (userShard uid) := by
  have happend := shardByRight5_append p
    (length_zeroPadded 2 (uid / 10000000))
    (length_zeroPadded 2 (uid % 1000 / 10))
    (length_zeroPadded 1 (uid % 1000))
  rw [List.append_assoc, ← zeroPadded_three] at happend
  exact happend

theorem orderId_ne_nil
    (p : JString)
    (uid : Nat) :
    orderId p uid ≠ [] := by
  intro hnil
  have hlength := congrArg List.length hnil
  simp [orderId] at hlength

/-! ## Routing -/

theorem getString_of_get
    {params : ParamsMap}
    {key : JString}
    {obj : JavaObject}
    (hget : params key = .ok (some obj)) :
    getString params key = obj.text := by
  unfold getString
  rw [hget]
  rfl

theorem getString_of_absent
    {params : ParamsMap}
    {key : JString}
    (hget : params key = .ok none) :
    getString params key = .ok none := by
  unfold getString
  rw [hget]
  rfl

/-- The user's number decides, whatever the other parameters are. -/
theorem parse_uid
    {params : ParamsMap}
    {obj : JavaObject}
    {uid : Nat}
    (hget : params (java "uid") = .ok (some obj))
    (htext : obj.text = .ok (some (longToString uid)))
    (huid : uid < 10 ^ 9) :
    parse params = .ok (userShard uid) := by
  have hstring := getString_of_get hget
  have hlong : InLong (uid : Int) := by
    unfold InLong
    omega
  have hnumber := parseLong_longToString hlong
  unfold parse
  rw [hstring, htext]
  simp only [bind, Except.bind, if_pos (isEmpty_longToString uid), hnumber]
  exact shardByUid_user huid

/-- The parameters that may hold an order number. -/
def orderKeys : List JString :=
  [java "payOrderId", java "parentPayOrderId", java "parentOrderId"]

/-- A single order number, under any of its names, is cut. -/
theorem parse_orderId
    {key id : JString}
    {obj : JavaObject}
    (hkey : key ∈ orderKeys)
    (htext : obj.text = .ok (some id))
    (hid : id ≠ []) :
    parse (ParamsMap.empty.put key (some obj)) = shardByRight5 (some id) := by
  have hempty : isEmpty (some id) = false := by
    simpa [isEmpty] using hid
  have hfound : getString (ParamsMap.empty.put key (some obj)) key =
      .ok (some id) := by
    have hget : ParamsMap.empty.put key (some obj) key = .ok (some obj) := by
      simp [ParamsMap.put]
    rw [getString_of_get hget, htext]
  have hother : ∀ other, other ≠ key →
      getString (ParamsMap.empty.put key (some obj)) other = .ok none := by
    intro other hne
    apply getString_of_absent
    simp [ParamsMap.put, ParamsMap.empty, hne]
  have hnull : ¬ (isEmpty none = false) := by simp [isEmpty]
  unfold orderKeys at hkey
  simp only [List.mem_cons, List.not_mem_nil, or_false] at hkey
  unfold parse
  rcases hkey with rfl | rfl | rfl
  · rw [hother _ (by decide), hfound]
    simp only [bind, Except.bind, if_neg hnull, if_pos hempty]
  · rw [hother _ (by decide), hother _ (by decide), hfound]
    simp only [bind, Except.bind, if_neg hnull, if_pos hempty]
  · rw [hother _ (by decide), hother _ (by decide), hother _ (by decide),
      hfound]
    simp only [bind, Except.bind, if_neg hnull, if_pos hempty]

theorem shardByRight5_length
    {key : Option JString}
    {shard : List JString}
    (hshard : shardByRight5 key = .ok shard) :
    ∃ set db table, shard = [set, db, table] := by
  cases key with
  | none => simp [shardByRight5] at hshard
  | some key =>
      simp only [shardByRight5, Except.ok.injEq] at hshard
      exact ⟨_, _, _, hshard.symm⟩

theorem shardByUid_length
    {uid : Int}
    {shard : List JString}
    (hshard : shardByUid uid = .ok shard) :
    ∃ set db table, shard = [set, db, table] := by
  unfold shardByUid at hshard
  simp only at hshard
  split at hshard
  · simp at hshard
  · simp only [Except.ok.injEq] at hshard
    exact ⟨_, _, _, hshard.symm⟩

/-- A shard names a set, a database and a table. -/
theorem parse_length
    {params : ParamsMap}
    {shard : List JString}
    (hshard : parse params = .ok shard) :
    ∃ set db table, shard = [set, db, table] := by
  unfold parse at hshard
  obtain ⟨uidString, _, hshard⟩ := except_bind_eq_ok hshard
  split at hshard
  · obtain ⟨uid, _, hshard⟩ := except_bind_eq_ok hshard
    exact shardByUid_length hshard
  obtain ⟨payOrderId, _, hshard⟩ := except_bind_eq_ok hshard
  split at hshard
  · exact shardByRight5_length hshard
  obtain ⟨parentPayOrderId, _, hshard⟩ := except_bind_eq_ok hshard
  split at hshard
  · exact shardByRight5_length hshard
  obtain ⟨parentOrderId, _, hshard⟩ := except_bind_eq_ok hshard
  split at hshard
  · exact shardByRight5_length hshard
  · simp at hshard

end Sharding
end ClpszDemos
