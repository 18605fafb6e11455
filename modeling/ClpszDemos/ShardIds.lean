import Mathlib.Tactic
import ClpszDemos.UidSharding

/-!
# Well formed shards

A shard is well formed when its three texts are numbers of two, two and one
digits.  The user's number gives such a shard or an exception, except for the
negative numbers that the division by `DIV_NUM` rounds to zero.  An order
number is cut without a check: the shard is well formed exactly when the order
number ends in five digits.
-/

namespace ClpszDemos
namespace Sharding

open JavaText

/-! ## Digits -/

def IsDecimal (c : UInt16) : Prop :=
  48 ≤ c.toNat ∧ c.toNat ≤ 57

instance (c : UInt16) : Decidable (IsDecimal c) :=
  inferInstanceAs (Decidable (_ ∧ _))

/-- A text of some decimal digits -/
structure Digits (size : Nat) (s : JString) : Prop where
  length_eq : s.length = size
  decimal : ∀ c ∈ s, IsDecimal c

theorem isDecimal_digitUnit {d : Nat} (hd : d < 10) :
    IsDecimal (digitUnit d) := by
  interval_cases d <;> decide

theorem digits_zeroPadded (k n : Nat) : Digits k (zeroPadded k n) := by
  induction k generalizing n with
  | zero => exact ⟨rfl, by simp [zeroPadded]⟩
  | succ k ih =>
      refine ⟨length_zeroPadded (k + 1) n, ?_⟩
      intro c hc
      simp only [zeroPadded, List.mem_append, List.mem_singleton] at hc
      rcases hc with hc | rfl
      · exact (ih (n / 10)).decimal c hc
      · exact isDecimal_digitUnit (Nat.mod_lt n (by omega))

theorem digitsValue_zeroPadded (k n : Nat) :
    digitsValue (zeroPadded k n) 0 = some (n % 10 ^ k) := by
  induction k generalizing n with
  | zero => simp [zeroPadded, digitsValue, Nat.mod_one]
  | succ k ih =>
      have hdigit : n % 10 < 10 := Nat.mod_lt n (by omega)
      have hsplit : n % 10 ^ (k + 1) = 10 * (n / 10 % 10 ^ k) + n % 10 := by
        rw [Nat.pow_succ, Nat.mul_comm (10 ^ k) 10, Nat.mod_mul]
        omega
      rw [zeroPadded, digitsValue_append, ih (n / 10), hsplit]
      simp [digitsValue, characterDigit_digitUnit hdigit]

/-! ## Shards -/

/-- A set of two digits, a database of two and a table of one -/
def WellFormed (shard : List JString) : Prop :=
  ∃ set db table, shard = [set, db, table] ∧
    Digits 2 set ∧ Digits 2 db ∧ Digits 1 table

/-- The set is the number divided by ten millions, and the database and the
table are its remainder by a thousand. -/
def Encodes (shard : List JString) (uid : Int) : Prop :=
  ∃ set db table, shard = [set, db, table] ∧
    digitsValue set 0 = some (uid / 10 ^ 7).toNat ∧
    digitsValue (db ++ table) 0 = some (uid % 1000).toNat

theorem wellFormed_userShard (uid : Nat) : WellFormed (userShard uid) :=
  ⟨_, _, _, rfl, digits_zeroPadded 2 _, digits_zeroPadded 2 _,
    digits_zeroPadded 1 _⟩

theorem encodes_userShard {uid : Nat} (huid : uid < 10 ^ 9) :
    Encodes (userShard uid) uid := by
  have hset : uid / 10000000 % 10 ^ 2 = ((uid : Int) / 10 ^ 7).toNat := by
    omega
  have hrest : uid % 1000 % 10 ^ 3 = ((uid : Int) % 1000).toNat := by
    omega
  refine ⟨_, _, _, rfl, ?_, ?_⟩
  · rw [digitsValue_zeroPadded, hset]
  · rw [← zeroPadded_three, digitsValue_zeroPadded, hrest]

/-! ## A user's number -/

theorem shardByUid_out_of_range {uid : Int}
    (huid : uid ≤ -10 ^ 7 ∨ 10 ^ 9 ≤ uid) :
    shardByUid uid =
      .error (.illegalArgument
        (java "set超时预设范围" ++ longToString (uid.tdiv divNum))) := by
  have hset : uid.tdiv divNum < 0 ∨ uid.tdiv divNum > 99 := by
    rcases huid with hlow | hhigh
    · left
      have hneg : uid.tdiv divNum = -((-uid).tdiv divNum) := by
        rw [Int.neg_tdiv, Int.neg_neg]
      have hdiv : (-uid).tdiv divNum = (-uid) / divNum :=
        Int.tdiv_eq_ediv_of_nonneg (by omega)
      unfold divNum at *
      omega
    · right
      have hdiv : uid.tdiv divNum = uid / divNum :=
        Int.tdiv_eq_ediv_of_nonneg (by omega)
      unfold divNum at *
      omega
  unfold shardByUid
  simp only [if_pos hset]

theorem shardByUid_in_range {uid : Int} (hlow : 0 ≤ uid)
    (hhigh : uid < 10 ^ 9) : shardByUid uid = .ok (userShard uid.toNat) := by
  have huser := @shardByUid_user uid.toNat (by omega)
  rw [Int.toNat_of_nonneg hlow] at huser
  exact huser

/-- The set of a small negative number is zero. -/
theorem shardByUid_small {uid : Int} (hlow : -10 ^ 7 < uid)
    (hhigh : uid < 0) : ∃ shard, shardByUid uid = .ok shard := by
  have hset : uid.tdiv divNum = 0 := by
    have hneg : uid.tdiv divNum = -((-uid).tdiv divNum) := by
      rw [Int.neg_tdiv, Int.neg_neg]
    have hdiv : (-uid).tdiv divNum = (-uid) / divNum :=
      Int.tdiv_eq_ediv_of_nonneg (by omega)
    unfold divNum at *
    omega
  unfold shardByUid
  simp only [hset]
  rw [if_neg (by omega)]
  exact ⟨_, rfl⟩

/-! ## An order number -/

/-- A slice is empty, or what is left of the front after a part is dropped. -/
theorem substring_cases (s : JString) (start stop : Int) :
    substring s start stop = [] ∨
      ∃ m n, substring s start stop = (s.take n).drop m ∧ start.toNat ≤ m := by
  have hstart : start.toNat ≤
      (if start < 0 then s.length + start else start).toNat := by
    split_ifs with hneg
    · omega
    · exact le_rfl
  unfold substring
  dsimp only
  split_ifs at hstart ⊢
  all_goals first
    | exact Or.inl rfl
    | exact Or.inr ⟨_, _, rfl, hstart⟩

theorem length_substring_le (s : JString) (start stop : Int) :
    (substring s start stop).length ≤ s.length - start.toNat := by
  rcases substring_cases s start stop with hnil | ⟨m, n, hslice, hm⟩
  · rw [hnil]
    exact Nat.zero_le _
  · rw [hslice, List.length_drop, List.length_take]
    omega

/-- A short order number leaves no table. -/
theorem shardByRight5_short {key : JString} (hkey : key.length < 5) :
    ∃ set db, shardByRight5 (some key) = .ok [set, db, []] := by
  have hid := length_substring_le key (key.length - 5) key.length
  have htable := length_substring_le
    (substring key (key.length - 5) key.length) 4 5
  have hnil : substring (substring key (key.length - 5) key.length) 4 5 =
      [] := by
    apply List.eq_nil_of_length_eq_zero
    have hfour : (4 : Int).toNat = 4 := rfl
    omega
  unfold shardByRight5
  simp only [hnil]
  exact ⟨_, _, rfl⟩

/-- The last five characters -/
def right5 (key : JString) : JString :=
  key.drop (key.length - 5)

theorem shardByRight5_long {key : JString} (hkey : 5 ≤ key.length) :
    ∃ set db table, right5 key = set ++ db ++ table ∧ set.length = 2 ∧
      db.length = 2 ∧ table.length = 1 ∧
      shardByRight5 (some key) = .ok [set, db, table] := by
  have hlength : (right5 key).length = 5 := by
    unfold right5
    rw [List.length_drop]
    omega
  have hset : ((right5 key).take 2).length = 2 := by
    rw [List.length_take]
    omega
  have hdb : (((right5 key).drop 2).take 2).length = 2 := by
    rw [List.length_take, List.length_drop]
    omega
  have htable : (((right5 key).drop 2).drop 2).length = 1 := by
    rw [List.length_drop, List.length_drop]
    omega
  have hright : right5 key = (right5 key).take 2 ++
      ((right5 key).drop 2).take 2 ++ ((right5 key).drop 2).drop 2 := by
    rw [List.append_assoc, List.take_append_drop, List.take_append_drop]
  have hcut := shardByRight5_append (key.take (key.length - 5)) hset hdb htable
  rw [← hright] at hcut
  unfold right5 at hcut
  rw [List.take_append_drop] at hcut
  exact ⟨_, _, _, hright, hset, hdb, htable, hcut⟩

/-- An order number names a shard when it ends in five digits. -/
theorem wellFormed_right5_iff {key : JString} {shard : List JString}
    (hshard : shardByRight5 (some key) = .ok shard) :
    WellFormed shard ↔ Digits 5 (right5 key) := by
  by_cases hkey : 5 ≤ key.length
  · obtain ⟨set, db, table, hright, hset, hdb, htable, hcut⟩ :=
      shardByRight5_long hkey
    rw [hcut] at hshard
    injection hshard with hshard
    rw [← hshard, hright]
    constructor
    · rintro ⟨set', db', table', hsame, hset', hdb', htable'⟩
      injection hsame with hsame hrest
      injection hrest with hrest hlast
      injection hlast with hlast _
      subst hsame hrest hlast
      refine ⟨by simp [hset, hdb, htable], ?_⟩
      intro c hc
      simp only [List.mem_append] at hc
      rcases hc with (hc | hc) | hc
      · exact hset'.decimal c hc
      · exact hdb'.decimal c hc
      · exact htable'.decimal c hc
    · intro hdigits
      have hmem := hdigits.decimal
      simp only [List.mem_append] at hmem
      exact ⟨set, db, table, rfl, ⟨hset, fun c hc => hmem c (.inl (.inl hc))⟩,
        ⟨hdb, fun c hc => hmem c (.inl (.inr hc))⟩,
        ⟨htable, fun c hc => hmem c (.inr hc)⟩⟩
  · obtain ⟨set, db, hcut⟩ := shardByRight5_short (show key.length < 5 by omega)
    rw [hcut] at hshard
    injection hshard with hshard
    rw [← hshard]
    constructor
    · rintro ⟨set', db', table', hsame, _, _, htable'⟩
      injection hsame with _ hrest
      injection hrest with _ hlast
      injection hlast with hlast _
      have hlength := htable'.length_eq
      rw [← hlast] at hlength
      cases hlength
    · intro hdigits
      have hlength := hdigits.length_eq
      unfold right5 at hlength
      rw [List.length_drop] at hlength
      omega

/-! ## Parameters -/

/-- What the map holds under the names of the strategy, as texts; `none` is
null. -/
structure Texts (params : ParamsMap)
    (uid payOrderId parentPayOrderId parentOrderId : Option JString) :
    Prop where
  uid : getString params (java "uid") = .ok uid
  payOrderId : getString params (java "payOrderId") = .ok payOrderId
  parentPayOrderId :
    getString params (java "parentPayOrderId") = .ok parentPayOrderId
  parentOrderId : getString params (java "parentOrderId") = .ok parentOrderId

/-- The first order number that is not empty -/
def orderNumber (payOrderId parentPayOrderId parentOrderId : Option JString) :
    Option JString :=
  if isEmpty payOrderId = false then payOrderId
  else if isEmpty parentPayOrderId = false then parentPayOrderId
  else if isEmpty parentOrderId = false then parentOrderId
  else none

def noShard : Thrown :=
  .illegalArgument (java "入参没有分库分表标识")

theorem Texts.parse_uid {params : ParamsMap}
    {uid payOrderId parentPayOrderId parentOrderId : Option JString}
    (htexts : Texts params uid payOrderId parentPayOrderId parentOrderId)
    (huid : isEmpty uid = false) :
    parse params = (parseLong uid >>= shardByUid) := by
  unfold parse
  rw [htexts.uid]
  simp only [bind, Except.bind, if_pos huid]

theorem Texts.parse_orderNumber {params : ParamsMap}
    {uid payOrderId parentPayOrderId parentOrderId : Option JString}
    (htexts : Texts params uid payOrderId parentPayOrderId parentOrderId)
    (huid : ¬ isEmpty uid = false) :
    parse params =
      match orderNumber payOrderId parentPayOrderId parentOrderId with
      | some key => shardByRight5 (some key)
      | none => .error noShard := by
  have hfound : ∀ {id : Option JString}, isEmpty id = false →
      shardByRight5 id = match id with
        | some key => shardByRight5 (some key)
        | none => .error noShard := by
    intro id hid
    cases id with
    | none => cases hid
    | some key => rfl
  unfold parse orderNumber
  rw [htexts.uid, htexts.payOrderId, htexts.parentPayOrderId,
    htexts.parentOrderId]
  simp only [bind, Except.bind, if_neg huid]
  split_ifs with hpay hparentPay hparent
  · exact hfound hpay
  · exact hfound hparentPay
  · exact hfound hparent
  · rfl

/-! ## Well formed or refused -/

/-- `IllegalArgumentException`, of which `NumberFormatException` is a
subclass. -/
def IsIllegalArgument : Thrown → Prop
  | .illegalArgument _ => True
  | .numberFormat _ => True
  | _ => False

/-- The call throws an `IllegalArgumentException` or gives a well formed
shard, and with a user's number it throws exactly outside of the range and
encodes the number in it. -/
structure ShardIds (uid : Option JString)
    (result : Except Thrown (List JString)) : Prop where
  refused : ∀ error, result = .error error → IsIllegalArgument error
  wellFormed : ∀ shard, result = .ok shard → WellFormed shard
  refused_iff : ∀ n, isEmpty uid = false → parseLong uid = .ok n →
    ((∃ error, result = .error error) ↔ n < 0 ∨ 10 ^ 9 ≤ n)
  encodes : ∀ n, isEmpty uid = false → parseLong uid = .ok n →
    ∀ shard, result = .ok shard → Encodes shard n

/-- A user's number that is not rounded to set zero from below, or an order
number that ends in five digits -/
def Routable
    (uid payOrderId parentPayOrderId parentOrderId : Option JString) : Prop :=
  (∀ n, isEmpty uid = false → parseLong uid = .ok n →
    n ≤ -10 ^ 7 ∨ 0 ≤ n) ∧
  (isEmpty uid = true →
    ∀ key, orderNumber payOrderId parentPayOrderId parentOrderId = some key →
      Digits 5 (right5 key))

theorem parseLong_error {s : Option JString} {error : Thrown}
    (hparse : parseLong s = .error error) : IsIllegalArgument error := by
  unfold parseLong at hparse
  split at hparse
  · injection hparse with hparse
    rw [← hparse]
    trivial
  · split at hparse
    · injection hparse with hparse
      rw [← hparse]
      trivial
    · split_ifs at hparse
      injection hparse with hparse
      rw [← hparse]
      trivial

theorem ShardIds.error {uid : Option JString} {error : Thrown}
    (herror : IsIllegalArgument error)
    (hout : ∀ n, isEmpty uid = false → parseLong uid = .ok n →
      n < 0 ∨ 10 ^ 9 ≤ n) : ShardIds uid (.error error) where
  refused := by
    intro other hother
    injection hother with hother
    rw [← hother]
    exact herror
  wellFormed := by
    intro shard hshard
    cases hshard
  refused_iff := by
    intro n huid hparse
    constructor
    · intro _
      exact hout n huid hparse
    · intro _
      exact ⟨error, rfl⟩
  encodes := by
    intro n _ _ shard hshard
    cases hshard

theorem ShardIds.ok {uid : Option JString} {shard : List JString}
    (hwell : WellFormed shard)
    (hin : ∀ n, isEmpty uid = false → parseLong uid = .ok n →
      (0 ≤ n ∧ n < 10 ^ 9) ∧ Encodes shard n) : ShardIds uid (.ok shard) where
  refused := by
    intro error herror
    cases herror
  wellFormed := by
    intro other hother
    injection hother with hother
    rw [← hother]
    exact hwell
  refused_iff := by
    intro n huid hparse
    have hrange := (hin n huid hparse).1
    constructor
    · rintro ⟨error, herror⟩
      cases herror
    · intro hout
      omega
  encodes := by
    intro n huid hparse other hother
    injection hother with hother
    rw [← hother]
    exact (hin n huid hparse).2

/-- With a user's number the shards are well formed outside of the numbers
that are rounded to zero from below. -/
theorem shardIds_uid_iff {uid : Option JString} {n : Int}
    (huid : isEmpty uid = false) (hparse : parseLong uid = .ok n) :
    ShardIds uid (shardByUid n) ↔ n ≤ -10 ^ 7 ∨ 0 ≤ n := by
  have hsame : ∀ {m}, parseLong uid = .ok m → m = n := by
    intro m hm
    rw [hparse] at hm
    injection hm with hm
    exact hm.symm
  constructor
  · intro hids
    by_contra hsmall
    push Not at hsmall
    obtain ⟨shard, hshard⟩ := shardByUid_small hsmall.1 hsmall.2
    obtain ⟨error, herror⟩ :=
      (hids.refused_iff n huid hparse).mpr (.inl hsmall.2)
    rw [hshard] at herror
    cases herror
  · intro hn
    by_cases hrange : 0 ≤ n ∧ n < 10 ^ 9
    · rw [shardByUid_in_range hrange.1 hrange.2]
      apply ShardIds.ok (wellFormed_userShard n.toNat)
      intro m _ hm
      have hencodes := @encodes_userShard n.toNat (by omega)
      rw [Int.toNat_of_nonneg hrange.1] at hencodes
      rw [hsame hm]
      exact ⟨hrange, hencodes⟩
    · rw [shardByUid_out_of_range (show n ≤ -10 ^ 7 ∨ 10 ^ 9 ≤ n by omega)]
      apply ShardIds.error
      · trivial
      · intro m _ hm
        rw [hsame hm]
        omega

theorem shardIds_orderNumber_iff {uid : Option JString} {key : JString}
    (huid : ¬ isEmpty uid = false) :
    ShardIds uid (shardByRight5 (some key)) ↔ Digits 5 (right5 key) := by
  have hcut : ∃ shard, shardByRight5 (some key) = .ok shard := ⟨_, rfl⟩
  obtain ⟨shard, hshard⟩ := hcut
  rw [← wellFormed_right5_iff hshard, hshard]
  constructor
  · intro hids
    exact hids.wellFormed shard rfl
  · intro hwell
    exact .ok hwell fun n hempty => absurd hempty huid

/-- The shards are well formed exactly for the parameters that `Routable`
describes. -/
theorem shardIds_iff {params : ParamsMap}
    {uid payOrderId parentPayOrderId parentOrderId : Option JString}
    (htexts : Texts params uid payOrderId parentPayOrderId parentOrderId) :
    ShardIds uid (parse params) ↔
      Routable uid payOrderId parentPayOrderId parentOrderId := by
  by_cases huid : isEmpty uid = false
  · rw [htexts.parse_uid huid]
    have hnoOrder : isEmpty uid ≠ true := by
      rw [huid]
      decide
    cases hparse : parseLong uid with
    | error error =>
        constructor
        · intro _
          refine ⟨fun n _ hn => ?_, fun hempty => absurd hempty hnoOrder⟩
          rw [hparse] at hn
          cases hn
        · intro _
          apply ShardIds.error (parseLong_error hparse)
          intro n _ hn
          rw [hparse] at hn
          cases hn
    | ok n =>
        show ShardIds uid (shardByUid n) ↔ _
        rw [shardIds_uid_iff huid hparse]
        constructor
        · intro hn
          refine ⟨fun m _ hm => ?_, fun hempty => absurd hempty hnoOrder⟩
          rw [hparse] at hm
          injection hm with hm
          rw [← hm]
          exact hn
        · intro hroutable
          exact hroutable.1 n huid hparse
  · rw [htexts.parse_orderNumber huid]
    have hempty : isEmpty uid = true := by
      simpa using huid
    cases horder : orderNumber payOrderId parentPayOrderId parentOrderId with
    | none =>
        constructor
        · intro _
          refine ⟨fun n hn => absurd hn huid, fun _ key hkey => ?_⟩
          rw [horder] at hkey
          cases hkey
        · intro _
          exact .error trivial fun n hn => absurd hn huid
    | some key =>
        show ShardIds uid (shardByRight5 (some key)) ↔ _
        rw [shardIds_orderNumber_iff huid]
        constructor
        · intro hdigits
          refine ⟨fun n hn => absurd hn huid, fun _ other hother => ?_⟩
          rw [horder] at hother
          injection hother with hother
          rw [← hother]
          exact hdigits
        · intro hroutable
          exact hroutable.2 hempty key horder

/-- The parameters of a lookup by order number -/
def payOrderIdParams (payOrderId : String) : ParamsMap :=
  ParamsMap.empty.put (java "payOrderId") (some (.string (java payOrderId)))

theorem shardIds_iff_payOrderId :
    ShardIds none (parse (payOrderIdParams "CPO2017031422200222")) ↔
      Routable none (some (java "CPO2017031422200222")) none none :=
  shardIds_iff ⟨rfl, rfl, rfl, rfl⟩

/-- The parameters of a lookup by user -/
def uidParams (uid : Int) : ParamsMap :=
  ParamsMap.empty.put (java "uid") (some (.number .long uid))

/-- The user -5 is in no set, but has the database `0-`. -/
theorem not_shardIds :
    ¬ ShardIds (some (longToString (-5))) (parse (uidParams (-5))) := by
  intro hids
  have hshard : parse (uidParams (-5)) =
      .ok [java "00", java "0-", java "5"] := by decide
  obtain ⟨error, herror⟩ :=
    (hids.refused_iff (-5) (by decide) (by decide)).mpr (.inl (by decide))
  rw [hshard] at herror
  cases herror

end Sharding
end ClpszDemos
