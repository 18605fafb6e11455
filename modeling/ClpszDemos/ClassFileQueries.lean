import ClpszDemos.ClassFileEncoding

/-!
# Queries of a parsed class file

`Parse` stores the indices of the class, of its superclass and interfaces and
of its members' names as it reads them, and the queries follow them later.  A
query returns normally if and only if its chain of indices ends at a string.
-/

namespace ClpszDemos

namespace Jvm

namespace Classfile

/-! ## Chains of indices -/

def Utf8At (cp : ConstantPool) (index : BitVec 16) : Prop :=
  ∃ name, NamedAt cp index name

/-- A `Class` entry whose name is there. -/
def ClassAt (cp : ConstantPool) (index : BitVec 16) : Prop :=
  ∃ nameIndex, cp[index.toNat]? = some (some (.classInfo nameIndex)) ∧
    Utf8At cp nameIndex

def MemberInfo.Resolves (cp : ConstantPool) (m : MemberInfo) : Prop :=
  Utf8At cp m.nameIndex ∧ Utf8At cp m.descriptorIndex

/-- Every index of the class file is that of an entry of the right kind. -/
structure ClassFile.Resolves (cf : ClassFile) : Prop where
  this_class : ClassAt cf.constantPool cf.thisClass
  super_class : ClassAt cf.constantPool cf.superClass
  interfaces : ∀ index ∈ cf.interfaces, ClassAt cf.constantPool index
  fields : ∀ m ∈ cf.fields, m.Resolves cf.constantPool
  methods : ∀ m ∈ cf.methods, m.Resolves cf.constantPool

/-! ## Queries that return -/

def Returns {α : Type} (result : Except GoPanic α) : Prop :=
  ∃ a, result = .ok a

def MemberInfo.SafeToQuery (cp : ConstantPool) (m : MemberInfo) : Prop :=
  Returns (m.name cp) ∧ Returns (m.descriptor cp)

structure ClassFile.SafeToQuery (cf : ClassFile) : Prop where
  className : Returns cf.className
  superClassName : Returns cf.superClassName
  interfaceClassNames : Returns cf.interfaceClassNames
  fields : ∀ m ∈ cf.fields, m.SafeToQuery cf.constantPool
  methods : ∀ m ∈ cf.methods, m.SafeToQuery cf.constantPool
  mainMethod : Returns (getMainMethod cf)

theorem getUtf8_returns_iff (cp : ConstantPool) (index : BitVec 16) :
    Returns (cp.getUtf8 index) ↔ Utf8At cp index := by
  constructor
  · rintro ⟨name, hname⟩
    unfold ConstantPool.getUtf8 at hname
    split at hname
    · next str hentry => exact ⟨str, hentry⟩
    · cases hname
    · cases hname
  · rintro ⟨name, hname⟩
    exact ⟨name, getUtf8_namedAt hname⟩

theorem getClassName_returns_iff (cp : ConstantPool) (index : BitVec 16) :
    Returns (cp.getClassName index) ↔ ClassAt cp index := by
  constructor
  · rintro ⟨name, hname⟩
    unfold ConstantPool.getClassName at hname
    split at hname
    · next nameIndex hentry =>
        exact ⟨nameIndex, hentry, (getUtf8_returns_iff cp nameIndex).mp
          ⟨name, hname⟩⟩
    · cases hname
    · cases hname
  · rintro ⟨nameIndex, hentry, hutf8⟩
    obtain ⟨name, hname⟩ := (getUtf8_returns_iff cp nameIndex).mpr hutf8
    refine ⟨name, ?_⟩
    unfold ConstantPool.getClassName
    rw [hentry]
    exact hname

theorem mapM_returns_iff {α β : Type} (f : α → Except GoPanic β)
    (items : List α) :
    Returns (items.mapM f) ↔ ∀ a ∈ items, Returns (f a) := by
  induction items with
  | nil => exact ⟨fun _ a ha => absurd ha List.not_mem_nil, fun _ => ⟨[], rfl⟩⟩
  | cons first others ih =>
      have hcons : (first :: others).mapM f = (do
          let b ← f first
          let bs ← others.mapM f
          pure (b :: bs)) := List.mapM_cons
      rw [hcons, List.forall_mem_cons, ← ih]
      cases hfirst : f first with
      | error panic =>
          constructor
          · rintro ⟨bs, hbs⟩
            cases hbs
          · rintro ⟨⟨b, hb⟩, _⟩
            cases hb
      | ok b =>
          cases hothers : others.mapM f with
          | error panic =>
              constructor
              · rintro ⟨bs, hbs⟩
                cases hbs
              · rintro ⟨_, ⟨bs, hbs⟩⟩
                cases hbs
          | ok bs => exact ⟨fun _ => ⟨⟨b, rfl⟩, ⟨bs, rfl⟩⟩, fun _ => ⟨b :: bs, rfl⟩⟩

theorem member_safeToQuery_iff (cp : ConstantPool) (m : MemberInfo) :
    m.SafeToQuery cp ↔ m.Resolves cp :=
  and_congr (getUtf8_returns_iff cp m.nameIndex)
    (getUtf8_returns_iff cp m.descriptorIndex)

/-- The loop stops at `main`, or else looks at every method. -/
theorem findMainMethod_returns {cp : ConstantPool} {methods : List MemberInfo}
    (hmethods : ∀ m ∈ methods, m.SafeToQuery cp) :
    Returns (findMainMethod cp methods) := by
  induction methods with
  | nil => exact ⟨none, rfl⟩
  | cons m methods ih =>
      obtain ⟨⟨name, hname⟩, ⟨descriptor, hdescriptor⟩⟩ :=
        hmethods m List.mem_cons_self
      have hrest := ih fun m' hm' => hmethods m' (List.mem_cons_of_mem m hm')
      unfold findMainMethod
      rw [hname, hdescriptor]
      show Returns (if name = nameMain ∧ descriptor = descriptorMain
        then pure (some m) else findMainMethod cp methods)
      by_cases hmain : name = nameMain ∧ descriptor = descriptorMain
      · rw [if_pos hmain]
        exact ⟨some m, rfl⟩
      · rw [if_neg hmain]
        exact hrest

theorem safeToQuery_iff_resolves (cf : ClassFile) :
    cf.SafeToQuery ↔ cf.Resolves := by
  have hinterfaces : Returns cf.interfaceClassNames ↔
      ∀ index ∈ cf.interfaces, ClassAt cf.constantPool index := by
    have hmapM := mapM_returns_iff cf.constantPool.getClassName cf.interfaces
    simp only [getClassName_returns_iff] at hmapM
    exact hmapM
  constructor
  · intro hsafe
    constructor
    · exact (getClassName_returns_iff _ _).mp hsafe.className
    · exact (getClassName_returns_iff _ _).mp hsafe.superClassName
    · exact hinterfaces.mp hsafe.interfaceClassNames
    · exact fun m hm => (member_safeToQuery_iff _ m).mp (hsafe.fields m hm)
    · exact fun m hm => (member_safeToQuery_iff _ m).mp (hsafe.methods m hm)
  · intro hresolves
    have hmethods : ∀ m ∈ cf.methods, m.SafeToQuery cf.constantPool :=
      fun m hm => (member_safeToQuery_iff _ m).mpr (hresolves.methods m hm)
    constructor
    · exact (getClassName_returns_iff _ _).mpr hresolves.this_class
    · exact (getClassName_returns_iff _ _).mpr hresolves.super_class
    · exact hinterfaces.mpr hresolves.interfaces
    · exact fun m hm =>
        (member_safeToQuery_iff _ m).mpr (hresolves.fields m hm)
    · exact hmethods
    · exact findMainMethod_returns hmethods

/-- The queries of the class file return, if `Parse` returns no error. -/
def QueriesReturn (classData : List Byte) : Prop :=
  ∀ cf, parse classData = .ok cf → cf.SafeToQuery

/-- The indices in the file resolve, if `Parse` returns no error. -/
def IndicesResolve (classData : List Byte) : Prop :=
  ∀ cf, parse classData = .ok cf → cf.Resolves

/-- A class file is safe to query if and only if each of its indices is that of
an entry of the right kind. -/
theorem queries_return_iff (classData : List Byte) :
    QueriesReturn classData ↔ IndicesResolve classData := by
  constructor
  · intro hreturn cf hparse
    exact (safeToQuery_iff_resolves cf).mp (hreturn cf hparse)
  · intro hresolve cf hparse
    exact (safeToQuery_iff_resolves cf).mpr (hresolve cf hparse)

/-! ## Root classes -/

/-- Nothing is stored at index 0. -/
theorem readConstantPool_zero {data rest : List Byte} {cp : ConstantPool}
    (hread : readConstantPool data = .ok (cp, rest)) :
    ∀ c, cp[0]? ≠ some (some c) := by
  obtain ⟨cpLength, middle, _, hentries⟩ := bind_eq_ok hread
  cases hn : cpLength.toNat with
  | zero =>
      rw [hn] at hentries
      cases hentries
      intro c hc
      cases hc
  | succ n =>
      rw [hn] at hentries
      obtain ⟨entries, _, hpool⟩ := map_eq_ok hentries
      intro c hc
      rw [← hpool] at hc
      cases hc

theorem parse_constantPool {classData : List Byte} {cf : ClassFile}
    (hparse : parse classData = .ok cf) :
    ∃ data rest, readConstantPool data = .ok (cf.constantPool, rest) := by
  unfold parse at hparse
  cases hread : read classData with
  | error panic =>
      rw [hread] at hparse
      cases hparse
  | ok result =>
      rw [hread] at hparse
      cases hparse
      obtain ⟨magic, data1, _, h1⟩ := bind_eq_ok hread
      obtain ⟨version, data2, _, h2⟩ := bind_eq_ok h1
      obtain ⟨cp, data3, hpool, h3⟩ := bind_eq_ok h2
      obtain ⟨accessFlags, data4, _, h4⟩ := bind_eq_ok h3
      obtain ⟨thisClass, data5, _, h5⟩ := bind_eq_ok h4
      obtain ⟨superClass, data6, _, h6⟩ := bind_eq_ok h5
      obtain ⟨interfaces, data7, _, h7⟩ := bind_eq_ok h6
      obtain ⟨fields, data8, _, h8⟩ := bind_eq_ok h7
      obtain ⟨methods, _, hmethods⟩ := map_eq_ok h8
      refine ⟨data2, data3, ?_⟩
      rw [← hmethods]
      exact hpool

/-- A class without a superclass is never safe to query. -/
theorem not_safeToQuery_root {classData : List Byte} {cf : ClassFile}
    (hparse : parse classData = .ok cf) (hroot : cf.superClass = 0) :
    ¬ cf.SafeToQuery := by
  intro hsafe
  obtain ⟨data, rest, hpool⟩ := parse_constantPool hparse
  have hresolves := (safeToQuery_iff_resolves cf).mp hsafe
  obtain ⟨nameIndex, hentry, _⟩ := hresolves.super_class
  rw [hroot] at hentry
  exact readConstantPool_zero hpool _ hentry

/-- Version 52.0, and a pool with the class `A` at index 2. -/
def classFileHead : List Byte :=
  [0xca, 0xfe, 0xba, 0xbe, 0, 0, 0, 52, 0, 3, 1, 0, 1, 0x41, 7, 0, 1]

/-- A root class: its `super_class` is 0. -/
def rootClass : List Byte :=
  classFileHead ++ [0, 0x21, 0, 2, 0, 0, 0, 0, 0, 0, 0, 0]

/-- A method whose `name_index` is past the end of the pool. -/
def namelessMethod : List Byte :=
  classFileHead ++
    [0, 0x21, 0, 2, 0, 2, 0, 0, 0, 0, 0, 1, 0, 9, 0, 9, 0, 1, 0, 0]

/-- Both files parse; then `SuperClassName` of the one and `getMainMethod` of
the other panic. -/
theorem not_queries_return :
    ¬ QueriesReturn rootClass ∧ ¬ QueriesReturn namelessMethod := by
  constructor
  · intro hreturn
    have hsafe := hreturn _ rfl
    obtain ⟨name, hname⟩ := hsafe.superClassName
    cases hname
  · intro hreturn
    have hsafe := hreturn _ rfl
    obtain ⟨main, hmain⟩ := hsafe.mainMethod
    cases hmain

end Classfile

end Jvm

end ClpszDemos
