import ScriptCore.Proofs.Lowering.Derivation
import ScriptCore.Proofs.Scope.Admitted
import ScriptCore.Proofs.Ty.Structural

/-!
# Types of records

A record may have the name of any type, a builtin one included. Its class has a constructor that
takes its fields, and no builtin class is made so: none has fields, and none can be made from
nothing. So no record is a builtin type, and two records have one type only if they agree on their
names and on their fields.
-/
namespace ScriptCore

namespace Scope

variable {scope scope' : Scope} {line line' : Line} {given given' : List (String × String)}
  {known resolved resolved' : Parameters}

/-- The given parameters come behind those already known, with the types that the scope has under
the given names. -/
theorem resolveParameters_eq_append
    (found : scope.resolveParameters line known given = .ok resolved) :
    ∃ new, resolved = known ++ new ∧ Parameters.names new = given.map Prod.fst ∧
      (Parameters.types new).map .ok = given.map (scope.lookupType ·.2) := by
  induction given generalizing known with
  | nil =>
    obtain rfl : known = resolved := by simpa [resolveParameters] using found
    exact ⟨[], (List.append_nil known).symm, rfl, rfl⟩
  | cons parameter rest ih =>
    obtain ⟨name, typeName⟩ := parameter
    rw [resolveParameters] at found
    split at found
    · cases found
    · obtain ⟨type, isType, found⟩ := except_bind_eq_ok.mp found
      obtain ⟨new, rfl, names, types⟩ := ih found
      refine ⟨(name, type) :: new, by rw [List.append_assoc, List.singleton_append], ?_, ?_⟩
      · exact congrArg (name :: ·) names
      · have isNamed : scope.lookupType typeName = .ok type :=
          lookupType_eq_ok.mpr (resolveType_eq_ok.mp isType)
        exact (congrArg (.ok type :: ·) types).trans (congrArg (· :: _) isNamed.symm)

/-- Resolved parameters are the same if they have the same names, and the scopes the same types
under the names of their types. -/
theorem resolveParameters_eq_iff (found : scope.resolveParameters line [] given = .ok resolved)
    (found' : scope'.resolveParameters line' [] given' = .ok resolved') :
    resolved = resolved' ↔ given.map Prod.fst = given'.map Prod.fst ∧
      given.map (scope.lookupType ·.2) = given'.map (scope'.lookupType ·.2) := by
  obtain ⟨new, rfl, names, types⟩ := resolveParameters_eq_append found
  obtain ⟨new', rfl, names', types'⟩ := resolveParameters_eq_append found'
  have injective : Function.Injective (List.map (Except.ok : Ty → Except ScopeError Ty)) :=
    List.map_injective_iff.mpr fun _ _ => Except.ok.inj
  rw [← names, ← names', ← types, ← types', injective.eq_iff]
  constructor
  · rintro rfl
    exact ⟨rfl, rfl⟩
  · rintro ⟨sameNames, sameTypes⟩
    exact (List.zip_of_prod sameNames sameTypes).trans (List.zip_of_prod rfl rfl).symm

end Scope

/-- No builtin class has a constructor that takes nothing. -/
theorem ClassTy.nil_notMem_constructors_of_builtin {type : ClassTy} (known : type ∈ builtins) :
    [] ∉ type.constructors := by
  simp only [builtins, List.mem_cons, List.not_mem_nil, or_false] at known
  rcases known with rfl | rfl | rfl | rfl | rfl | rfl <;>
    simp [any, string, int, double, boolean, unit, bare]

namespace Lowering

section Types

variable {name name' : String} {fields fields' : Parameters} {type : ClassTy}

theorem recordType_inj :
    recordType name fields = recordType name' fields' ↔ name = name' ∧ fields = fields' := by
  simp only [recordType, Ty.cls.injEq, ClassTy.mk.injEq, Option.some.injEq, List.cons.injEq,
    and_true, and_self]

/-- A record without fields is made from nothing, and one with fields is no builtin class. -/
theorem recordType_ne_builtin (known : type ∈ ClassTy.builtins) :
    recordType name fields ≠ .cls type := by
  intro same
  obtain rfl := Ty.cls.inj same
  obtain rfl : fields = [] := ClassTy.fields_of_builtin known
  exact ClassTy.nil_notMem_constructors_of_builtin known List.mem_cons_self

theorem isAny_recordType : (recordType name fields).isAny = false :=
  decide_eq_false (recordType_ne_builtin (by decide))

theorem isNumber_recordType : (recordType name fields).isNumber = false := by
  rw [Ty.isNumber, Bool.or_eq_false_iff, decide_eq_false_iff_not, decide_eq_false_iff_not]
  exact ⟨recordType_ne_builtin (by decide), recordType_ne_builtin (by decide)⟩

/-- `Any` accepts all types, and no other builtin type accepts a record. -/
theorem builtin_accepts_recordType (known : type ∈ ClassTy.builtins) :
    (Ty.cls type).accepts (recordType name fields) = true ↔ type = .any := by
  rw [Ty.accepts_iff, or_iff_left (recordType_ne_builtin known).symm, Ty.any, Ty.cls.injEq]

end Types

variable {r r' : Option Ty} {s s' t t' : State} {line line' : Line} {name name' : String}
  {fields fields' : List (String × String)} {node node' : Node}

theorem lowerStmt_record {resolved : Parameters} (named : name.isEmpty = false)
    (found : s.scope.resolveParameters line [] fields = .ok resolved) :
    lowerStmt r (.record line name fields) s =
      (.ok (.record ⟨recordType name resolved, line⟩ ⟨name, resolved, line⟩),
        { s with scope := s.scope.defineType name (recordType name resolved) }) := by
  rw [lowerStmt]
  exact lowerRecord_eq_ok.mpr ⟨named, resolved, found, rfl, rfl⟩

/-- A record has the class of its name and of its fields, and its name stands for it. -/
theorem type_of_lowerStmt_record
    (declared : lowerStmt r (.record line name fields) s = (.ok node, t)) :
    ∃ resolved, s.scope.resolveParameters line [] fields = .ok resolved ∧
      node.type = recordType name resolved ∧
      t.scope.lookupType name = .ok (recordType name resolved) := by
  rw [lowerStmt] at declared
  obtain ⟨-, resolved, found, rfl, rfl⟩ := lowerRecord_eq_ok.mp declared
  exact ⟨resolved, found, rfl, Scope.lookupType_defineType.trans (if_pos rfl)⟩

/-- Two records that lower, in any scopes, have one class type if they have the same name and the
same names of fields in order, and the scopes the same types for the fields, and only then. No
record has the type of a builtin class, whatever its name is: it is no number and not `Any`, and
`Any` is the only builtin type that accepts it. The same is found where types are shared, as long as
the builtin classes are there as they were, without a constructor added to them. -/
theorem records_have_types_of_their_own
    (declared : lowerStmt r (.record line name fields) s = (.ok node, t))
    (declared' : lowerStmt r' (.record line' name' fields') s' = (.ok node', t')) :
    t.scope.lookupType name = .ok node.type ∧
    (node.type = node'.type ↔ name = name' ∧ fields.map Prod.fst = fields'.map Prod.fst ∧
      fields.map (s.scope.lookupType ·.2) = fields'.map (s'.scope.lookupType ·.2)) ∧
    node.type.isAny = false ∧ node.type.isNumber = false ∧
    (∀ type ∈ ClassTy.builtins, node.type ≠ .cls type ∧
      ((Ty.cls type).accepts node.type = true ↔ type = .any)) ∧
    ∀ table : TypeTable, table.Grounded → TypeTable.builtins.PartOf table →
      ∀ place < table.layers.size, ∀ place' < table.layers.size,
        table.unfold place = node.type → table.unfold place' = node'.type →
        (table.same place place' = true ↔ node.type = node'.type) ∧
        table.isAny place = false ∧ table.isNumber place = false ∧
        ∀ builtin type, ClassTy.builtins[builtin]? = some type →
          table.same builtin place = false ∧
          (table.accepts builtin place = true ↔ type = .any) := by
  obtain ⟨resolved, found, isRecord, named⟩ := type_of_lowerStmt_record declared
  obtain ⟨resolved', found', isRecord', -⟩ := type_of_lowerStmt_record declared'
  rw [isRecord, isRecord']
  refine ⟨named, ?_, isAny_recordType, isNumber_recordType, fun type known => ?_, ?_⟩
  · rw [recordType_inj, Scope.resolveParameters_eq_iff found found']
  · exact ⟨recordType_ne_builtin known, builtin_accepts_recordType known⟩
  intro table grounded kept place inside place' inside' stands stands'
  refine ⟨?_, ?_, ?_, fun builtin type known => ?_⟩
  · rw [grounded.same_iff_unfold_eq inside inside', stands, stands']
  · rw [grounded.isAny_eq kept inside, stands, isAny_recordType]
  · rw [grounded.isNumber_eq kept inside, stands, isNumber_recordType]
  · have known' : type ∈ ClassTy.builtins := List.mem_of_getElem? known
    rw [Bool.eq_false_iff, Ne, grounded.same_builtin_iff kept known inside,
      grounded.builtin_accepts_eq kept known inside, stands]
    exact ⟨(recordType_ne_builtin known').symm, builtin_accepts_recordType known'⟩

/-- Beside the builtin classes, two records `Int` of one form. -/
def ownInts : TypeTable :=
  let fields := [("value", TypeTable.double)]
  ⟨TypeTable.builtins.layers ++ #[.cls "Int" fields [fields], .cls "Int" fields [fields]]⟩

/-- Records `Int` whose fields are doubles, under another name in the second scope. -/
theorem records_have_types_of_their_own_int :
    ∃ node node' t t',
      lowerStmt none (.record ⟨1⟩ "Int" [("value", "Double")]) ⟨.builtins, 0⟩ = (.ok node, t) ∧
      lowerStmt none (.record ⟨2⟩ "Int" [("value", "Number")])
        ⟨Scope.builtins.defineType "Number" .double, 0⟩ = (.ok node', t') ∧
      ownInts.Grounded ∧ TypeTable.builtins.PartOf ownInts ∧
      ownInts.unfold 6 = node.type ∧ ownInts.unfold 7 = node'.type ∧
      t.scope.lookupType "Int" = .ok node.type ∧ node.type = node'.type ∧
      node.type.isNumber = false ∧ Ty.int.accepts node.type = false ∧
      ownInts.same 6 7 = true ∧ ownInts.isNumber 6 = false ∧
      ownInts.accepts TypeTable.int 6 = false ∧ ownInts.accepts TypeTable.any 6 = true := by
  have found : Scope.builtins.resolveParameters ⟨1⟩ [] [("value", "Double")] =
      .ok [("value", .double)] := rfl
  have found' : (Scope.builtins.defineType "Number" .double).resolveParameters ⟨2⟩ []
      [("value", "Number")] = .ok [("value", .double)] := rfl
  have declared : lowerStmt none (.record ⟨1⟩ "Int" [("value", "Double")]) ⟨.builtins, 0⟩ = _ :=
    lowerStmt_record rfl found
  have declared' : lowerStmt none (.record ⟨2⟩ "Int" [("value", "Number")])
      ⟨Scope.builtins.defineType "Number" .double, 0⟩ = _ := lowerStmt_record rfl found'
  have grounded : ownInts.Grounded := TypeTable.grounded_of_rank id (by decide)
  have kept : TypeTable.builtins.PartOf ownInts := fun place layer there =>
    (Array.getElem?_append_left (Array.getElem?_eq_some_iff.mp there).1).trans there
  obtain ⟨named, same, -, number, builtins, shared⟩ :=
    records_have_types_of_their_own declared declared'
  obtain ⟨sameShared, -, numberShared, builtinsShared⟩ :=
    shared ownInts grounded kept 6 (by decide) 7 (by decide) rfl rfl
  have equal := same.mpr ⟨rfl, rfl, rfl⟩
  have refused : Ty.int.accepts (recordType "Int" [("value", .double)]) ≠ true :=
    fun accepted => absurd ((builtins .int (by decide)).2.mp accepted) (by decide)
  have refusedShared : ownInts.accepts TypeTable.int 6 ≠ true :=
    fun accepted => absurd ((builtinsShared TypeTable.int .int rfl).2.mp accepted) (by decide)
  exact ⟨_, _, _, _, declared, declared', grounded, kept, rfl, rfl, named, equal, number,
    Bool.eq_false_iff.mpr refused, sameShared.mpr equal, numberShared,
    Bool.eq_false_iff.mpr refusedShared, (builtinsShared TypeTable.any .any rfl).2.mpr rfl⟩

end Lowering

end ScriptCore
