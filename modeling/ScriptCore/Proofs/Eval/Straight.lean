import ScriptCore.Proofs.Eval.Course
import ScriptCore.Proofs.Eval.TypeSafety
import ScriptCore.Proofs.Lowering.Derivation
import ScriptCore.Proofs.Scope.Admitted
import ScriptCore.Proofs.Store.Evolution

/-!
# Straight-line units

A straight-line unit declares variables, assigns to them, and evaluates expressions over literals,
variables and operators. It enters no scope, so a name that it reads is bound in the one frame there
is or not at all, and the types of what is bound in that frame can be followed from one statement to
the next.
-/
namespace ScriptCore

/-- Literals, variables, operators and assignments. -/
def Expr.isStraight : Expr → Bool
  | literal _ _ | name _ _ => true
  | group _ inner => inner.isStraight
  | assign _ _ value => value.isStraight
  | unary _ _ right => right.isStraight
  | binary _ _ left right | logical _ _ left right => left.isStraight && right.isStraight
  | _ => false

def Stmt.isStraight : Stmt → Bool
  | expr value | bind _ _ _ _ value => value.isStraight
  | _ => false

/-- The types of the variables that are known to be bound. -/
abbrev Known := String → Option Ty

namespace Known

/-- Whether a wider table has a type for all that is known, which accepts the one that is known. -/
def Within (known wider : Known) : Prop :=
  ∀ name type, known name = some type → ∃ later, wider name = some later ∧ later.accepts type = true

def insert (known : Known) (name : String) (type : Ty) : Known :=
  fun other => if name = other then some type else known other

/-- What is known behind nodes that are evaluated one after the other. -/
def behind (known : Known) : List Node → Known
  | [] => known
  | .bind tag _ name _ :: rest => (known.insert name tag.type).behind rest
  | _ :: rest => known.behind rest

/-- Whether every node that declares a name declares it with a type that accepts the one it is
known to be bound with, from before or by an earlier node. -/
def keepsTypes (known : Known) : List Node → Bool
  | [] => true
  | .bind tag _ name _ :: rest =>
    (known name).all tag.type.accepts && (known.insert name tag.type).keepsTypes rest
  | _ :: rest => known.keepsTypes rest

variable {known between wider : Known} {name : String} {type : Ty}

theorem Within.refl : known.Within known := fun _ type there => ⟨type, there, Ty.accepts_refl type⟩

theorem Within.trans (first : known.Within between) (second : between.Within wider) :
    known.Within wider := by
  intro name type there
  obtain ⟨later, found, accepts⟩ := first name type there
  obtain ⟨last, behind, accepts'⟩ := second name later found
  exact ⟨last, behind, Ty.accepts_trans accepts' accepts⟩

theorem insert_eq_some {other : String} {found : Ty} :
    known.insert name type other = some found ↔
      (name = other ∧ type = found) ∨ (name ≠ other ∧ known other = some found) := by
  by_cases same : name = other <;> simp [insert, same]

theorem within_insert (kept : (known name).all type.accepts = true) :
    known.Within (known.insert name type) := by
  intro other found there
  by_cases same : name = other
  · subst same
    rw [there, Option.all_some] at kept
    exact ⟨type, insert_eq_some.mpr (.inl ⟨rfl, rfl⟩), kept⟩
  · exact ⟨found, insert_eq_some.mpr (.inr ⟨same, there⟩), Ty.accepts_refl found⟩

theorem within_behind {nodes : List Node} (kept : known.keepsTypes nodes = true) :
    known.Within (known.behind nodes) := by
  induction nodes generalizing known with
  | nil => exact .refl
  | cons node rest ih =>
    cases node with
    | bind tag mutability name value =>
      simp only [keepsTypes, Bool.and_eq_true] at kept
      exact (within_insert kept.1).trans (ih kept.2)
    | _ => exact ih kept

end Known

namespace Node

/-- The nodes of expressions of straight-line units. -/
def isOperation : Node → Bool
  | literal _ _ | readVariable _ _ | readFunction _ _ | assign _ _ _ | unary _ _ _
  | binary _ _ _ _ | logical _ _ _ _ => true
  | _ => false

theorem ne_openModule_of_isOperation {node : Node} (operation : node.isOperation = true) :
    ∀ tag name, node ≠ openModule tag name := by
  rintro tag name rfl
  cases operation

end Node

namespace Known

variable {known : Known} {node : Node} {rest : List Node}

theorem behind_cons_of_isOperation (operation : node.isOperation = true) :
    known.behind (node :: rest) = known.behind rest := by
  cases node with
  | bind => cases operation
  | _ => rfl

theorem keepsTypes_cons_of_isOperation (operation : node.isOperation = true) :
    known.keepsTypes (node :: rest) = known.keepsTypes rest := by
  cases node with
  | bind => cases operation
  | _ => rfl

end Known

namespace Value

/-- A sound value of a type that accepts the value's own type, where `Unit` is no exception. -/
structure Exact (type : Ty) (value : Value) : Prop where
  sound : value.Sound .builtin
  accepted : type.accepts value.type = true

variable {value : Value} {type : Ty}

theorem Exact.fits (exact : value.Exact type) : value.Fits .builtin type :=
  ⟨exact.sound, .inr exact.accepted⟩

theorem Exact.of_accepts {wider : Ty} (exact : value.Exact type)
    (accepts : wider.accepts type = true) : value.Exact wider :=
  ⟨exact.sound, Ty.accepts_trans accepts exact.accepted⟩

theorem Fits.exact (fits : value.Fits .builtin type) (notUnit : type ≠ .unit) : value.Exact type :=
  ⟨fits.sound, fits.accepted.resolve_left notUnit⟩

theorem exact_boolean (b : Bool) : (boolean b).Exact .boolean :=
  (fits_boolean b).exact (by decide)

theorem exact_ofLiteral {value : Literal} : (ofLiteral value).Exact value.type := by
  cases value with
  | scalar scalar => exact ⟨rfl, Ty.accepts_refl _⟩
  | unit => exact ⟨trivial, Ty.accepts_refl _⟩

/-- What an operator gives where its typing rule holds. -/
theorem exact_binary {op : BinaryOp} {left right : Value} {leftType rightType : Ty} {line : Line}
    (first : left.Exact leftType) (second : right.Exact rightType)
    (typed : Typing.binaryType op leftType rightType line = .ok type) :
    ∃ result, binary op left right = .ok result ∧ result.Exact type := by
  have exact {other : Ty} (notUnit : other ≠ .unit) (result : ∃ result,
      binary op left right = .ok result ∧ result.Fits .builtin other) :
      ∃ result, binary op left right = .ok result ∧ result.Exact other := by
    obtain ⟨result, computed, fits⟩ := result
    exact ⟨result, computed, fits.exact notUnit⟩
  rcases Typing.binaryType_eq_ok.mp typed with ⟨arithmetic, leftNumber, rightNumber, rfl⟩ |
    ⟨rfl, rfl, rfl⟩ | ⟨comparison, leftNumber, rightNumber, rfl⟩ | ⟨equality, -, rfl⟩
  · obtain ⟨x, isX⟩ := first.fits.asNumber leftNumber
    obtain ⟨y, isY⟩ := second.fits.asNumber rightNumber
    exact exact (by decide) (arithmetic_fits arithmetic isX isY)
  · obtain ⟨text, rfl⟩ := first.fits.isString
    exact exact (by decide) concatenation_fits
  · obtain ⟨x, isX⟩ := first.fits.asNumber leftNumber
    obtain ⟨y, isY⟩ := second.fits.asNumber rightNumber
    exact exact (by decide) (comparison_fits comparison isX isY)
  · exact exact (by decide) (equality_fits equality)

end Value

namespace Store

/-- A store with no frame but the one at `env`, whose variables are known and have values that
their types accept. -/
structure Agrees (env : Location) (known : Known) (store : Store) : Prop where
  sound : store.Sound .builtin
  only : ∀ location frame, store.frame? location = some frame → location = env
  values : ∀ location frame, store.frame? location = some frame → ∀ name value,
    frame.value? name = some value →
      ∃ type, known name = some type ∧ type.accepts value.type = true

variable {env : Location} {known wider : Known} {store : Store} {name : String}

theorem Agrees.mono (agrees : store.Agrees env known) (within : known.Within wider) :
    store.Agrees env wider := by
  refine ⟨agrees.sound, agrees.only, fun location frame there name value found => ?_⟩
  obtain ⟨type, bound, accepted⟩ := agrees.values location frame there name value found
  obtain ⟨later, known, accepts⟩ := within name type bound
  exact ⟨later, known, Ty.accepts_trans accepts accepted⟩

/-- A known variable may be bound to a value of its type, in whatever frame. -/
theorem Agrees.setVariable (agrees : store.Agrees env known) {location : Location} {value : Value}
    {mutability : Mutability} {type : Ty} (bound : known name = some type)
    (exact : value.Exact type) :
    (store.setVariable location name ⟨value, mutability⟩).Agrees env known where
  sound := agrees.sound.setVariable trivial exact.fits
  only := by
    intro other frame there
    obtain ⟨old, found, -⟩ := of_frame?_update there
    exact agrees.only other old found
  values := by
    intro other frame there name' value' found
    obtain ⟨old, was, ⟨rfl, -⟩ | ⟨rfl, -⟩⟩ := of_frame?_update there
    · exact agrees.values other frame was name' value' found
    · rcases Frame.of_value?_insert found with ⟨rfl, rfl⟩ | before
      · exact ⟨type, bound, exact.accepted⟩
      · exact agrees.values other old was name' value' before

end Store

namespace Lowering

open Eval

/-- However a step stops, the store agrees with what is known. -/
def agreeing (env : Location) (known : Known) : Stops :=
  ⟨fun _ => (·.Agrees env known), fun _ => (·.Agrees env known), (·.Agrees env known)⟩

/-- The functions that a scope offers are the ones that are there from the start. -/
def OffersBuiltins (scope : Scope) : Prop :=
  ∀ name, ∀ overload ∈ scope.overloads name,
    Declarations.builtin.functions overload.name overload.type

/-- The scope has the type of every variable that is known to be bound. -/
def HasTypes (scope : Scope) (known : Known) : Prop :=
  ∀ name type, known name = some type → scope.lookup name = .ok type

theorem HasTypes.define {scope : Scope} {known : Known} (has : HasTypes scope known) (name : String)
    (type : Ty) :
    HasTypes (scope.define name type) (known.insert name type) := by
  intro other found there
  rw [Scope.lookup_define]
  rcases Known.insert_eq_some.mp there with ⟨rfl, rfl⟩ | ⟨different, old⟩
  · rw [if_pos rfl]
  · rw [if_neg different]
    exact has other found old

theorem Lowers.straight_eq {r : Option Ty} (e : Expr) (straight : e.isStraight = true)
    {s s' : State} {nodes : List Node} (h : Lowers r s (.expr e) nodes s') : s' = s := by
  match e with
  | .literal _ _ | .name _ _ =>
    cases h
    rfl
  | .group _ inner =>
    cases h with
    | group lowered => exact lowered.straight_eq inner straight
  | .assign _ _ value =>
    cases h with
    | assign _ lowered _ => exact lowered.straight_eq value straight
  | .unary _ _ right =>
    cases h with
    | unary lowered _ => exact lowered.straight_eq right straight
  | .binary _ _ left right =>
    simp only [Expr.isStraight, Bool.and_eq_true] at straight
    cases h with
    | binary first second _ =>
      rw [second.straight_eq right straight.2, first.straight_eq left straight.1]
  | .logical _ _ left right =>
    simp only [Expr.isStraight, Bool.and_eq_true] at straight
    cases h with
    | logical first second _ =>
      rw [second.straight_eq right straight.2, first.straight_eq left straight.1]

section Evaluation

variable {interpreter : Interpreter} {env : Location} {known : Known}

/-- What a node does in a step it does with any fuel, unless the fuel runs out. -/
theorem agrees_of_step {node : Node} {after : Value → Store → Prop}
    (stepped : ∀ fuel, Triple (·.Agrees env known)
      (interpreter.step fuel (interpreter.evaluate fuel) node env) after (agreeing env known))
    (fuel : Nat) :
    Triple (·.Agrees env known) (interpreter.evaluate fuel node env) after
      (agreeing env known) := by
  cases fuel with
  | zero => exact Triple.exhausted fun _ agrees => agrees
  | succ fuel => exact Triple.located (stepped fuel)

/-- A check that succeeds. -/
theorem agrees_check {result : Except Fault Value} {type : Ty}
    (checked : ∃ value, result = .ok value ∧ value.Exact type) :
    Triple (·.Agrees env known) (Eval.ask fun _ => result)
      (fun value heap => value.Exact type ∧ heap.Agrees env known) (agreeing env known) := by
  obtain ⟨value, rfl, exact⟩ := checked
  refine Triple.check (fun other heap same agrees => ?_) nofun
  cases same
  exact ⟨exact, agrees⟩

theorem agrees_truth {value : Value} (exact : value.Exact .boolean) :
    Triple (·.Agrees env known) (Eval.ask fun _ => value.truth)
      (fun _ heap => heap.Agrees env known) (agreeing env known) := by
  obtain ⟨b, rfl⟩ := exact.fits.isBoolean
  exact Triple.check (fun _ _ _ agrees => agrees) nofun

/-- A variable that is bound has a value of the type that the scope has for it. -/
theorem agrees_lookup {scope : Scope} {name : String} {type : Ty}
    (has : HasTypes scope known) (resolved : scope.lookup name = .ok type) :
    Triple (·.Agrees env known) (Eval.lookup env name)
      (fun value heap => value.Exact type ∧ heap.Agrees env known) (agreeing env known) := by
  refine Triple.lookup (fun heap location frame value agrees there found => ?_)
    fun heap agrees => agrees
  obtain ⟨other, bound, accepted⟩ := agrees.values location frame there name value found
  have same : other = type := by
    have again := has name other bound
    rw [resolved] at again
    exact (Except.ok.inj again).symm
  obtain ⟨_, -, fits⟩ := (agrees.sound location frame there).values name value found
  exact ⟨⟨fits.sound, same ▸ accepted⟩, agrees⟩

theorem agrees_lookupFunction {name : String} {type : FnTy}
    (offered : Declarations.builtin.functions name type) :
    Triple (·.Agrees env known) (Eval.lookupFunction env name)
      (fun callable heap => (Value.callable callable).Exact (.fn type) ∧ heap.Agrees env known)
      (agreeing env known) := by
  refine Triple.lookupFunction (fun heap location frame callable agrees there found => ?_)
    fun heap agrees => agrees
  obtain ⟨sound, typed⟩ :=
    (agrees.sound location frame there).callables name callable found type offered
  exact ⟨⟨sound, typed ▸ Ty.accepts_refl _⟩, agrees⟩

/-- A variable that is bound takes a value of the type that the scope has for it. -/
theorem agrees_assign {scope : Scope} {name : String} {value : Value} {type : Ty}
    (has : HasTypes scope known) (resolved : scope.lookup name = .ok type)
    (exact : value.Exact type) :
    Triple (·.Agrees env known) (Eval.assign env name value)
      (fun _ heap => heap.Agrees env known) (agreeing env known) := by
  refine Triple.assign (fun heap holder old agrees holds => ?_) (fun _ _ _ agrees _ => agrees)
    fun _ agrees _ => agrees
  obtain ⟨frame, there, here⟩ := Store.frame?_of_holder? holds
  have bound : frame.value? name = some old := by
    rw [Store.Frame.value?, here]
    rfl
  obtain ⟨other, isKnown, -⟩ := agrees.values holder frame there name old bound
  have same := has name other isKnown
  rw [resolved] at same
  exact agrees.setVariable isKnown (Except.ok.inj same ▸ exact)

/-- An expression of a straight-line unit gives a value of its static type, however much of what the
scope declares is bound. The induction is on the source, along its derivation. -/
theorem Lowers.agrees {r : Option Ty} (e : Expr) (straight : e.isStraight = true) {s s' : State}
    {node : Node} (h : Lowers r s (.expr e) [node] s') (offers : OffersBuiltins s.scope)
    (has : HasTypes s.scope known) (fuel : Nat) :
    Triple (·.Agrees env known) (interpreter.evaluate fuel node env)
      (fun value heap => value.Exact node.type ∧ heap.Agrees env known) (agreeing env known) := by
  match e with
  | .literal _ _ =>
    cases h
    exact agrees_of_step (fun _ => Triple.pure fun _ agrees => ⟨Value.exact_ofLiteral, agrees⟩) fuel
  | .name _ x =>
    cases h with
    | name resolved =>
      rcases Scope.resolveName_eq_ok.mp resolved with ⟨type, found, rfl⟩ |
        ⟨_, overload, rest, -, found, rfl⟩
      · exact agrees_of_step (fun _ => agrees_lookup has found) fuel
      · have offered := offers x overload (found ▸ List.mem_cons_self)
        refine agrees_of_step
          (fun _ => (agrees_lookupFunction offered).bind fun callable => ?_) fuel
        exact Triple.pure fun _ held => held
  | .group _ inner =>
    cases h with
    | group lowered => exact lowered.agrees inner straight offers has fuel
  | .assign _ x value =>
    cases h with
    | assign resolved lowered typed =>
      obtain ⟨accepted, rfl⟩ := Typing.assign_eq_ok.mp typed
      have found := Scope.lookup_eq_ok.mpr (Scope.resolveVariable_eq_ok.mp resolved)
      refine agrees_of_step (fun fuel => ?_) fuel
      refine (lowered.agrees value straight offers has fuel).bind fun value => ?_
      refine Triple.of_fact fun exact => ?_
      have fitting := exact.of_accepts accepted
      apply (agrees_assign has found fitting).bind
      exact fun _ => Triple.pure fun _ agrees => ⟨fitting, agrees⟩
  | .unary _ op right =>
    cases h with
    | @unary _ _ _ _ _ _ rightNode _ lowered typed =>
      cases op with
      | neg =>
        obtain ⟨number, rfl⟩ := Typing.neg_eq_ok.mp typed
        refine agrees_of_step (fun fuel => ?_) fuel
        refine (lowered.agrees right straight offers has fuel).bind fun value => ?_
        refine Triple.of_fact fun exact => agrees_check ?_
        obtain ⟨result, computed, fits⟩ := Value.negation_fits exact.fits number
        have notUnit : rightNode.type ≠ .unit := by
          intro same
          rw [same] at number
          exact absurd number (by decide)
        exact ⟨result, computed, fits.exact notUnit⟩
      | not =>
        obtain ⟨boolean, rfl⟩ := Typing.not_eq_ok.mp typed
        refine agrees_of_step (fun fuel => ?_) fuel
        refine (lowered.agrees right straight offers has fuel).bind fun value => ?_
        refine Triple.of_fact fun exact => agrees_check ?_
        obtain ⟨result, computed, fits⟩ := Value.complement_fits (boolean ▸ exact.fits)
        exact ⟨result, computed, fits.exact (by decide)⟩
  | .binary _ op left right =>
    simp only [Expr.isStraight, Bool.and_eq_true] at straight
    cases h with
    | binary first second typed =>
      obtain ⟨type, rule, rfl⟩ := Typing.binary_eq_ok.mp typed
      obtain rfl := first.straight_eq left straight.1
      refine agrees_of_step (fun fuel => ?_) fuel
      refine (first.agrees left straight.1 offers has fuel).bind fun leftValue => ?_
      refine Triple.of_fact fun leftExact => ?_
      refine (second.agrees right straight.2 offers has fuel).holding.bind fun rightValue => ?_
      exact Triple.of_fact fun rightExact =>
        agrees_check (Value.exact_binary leftExact rightExact rule)
  | .logical _ op left right =>
    simp only [Expr.isStraight, Bool.and_eq_true] at straight
    cases h with
    | logical first second typed =>
      obtain ⟨leftBoolean, rightBoolean, rfl⟩ := Typing.logical_eq_ok.mp typed
      obtain rfl := first.straight_eq left straight.1
      refine agrees_of_step (fun fuel => ?_) fuel
      refine (first.agrees left straight.1 offers has fuel).bind fun leftValue => ?_
      refine Triple.of_fact fun leftExact => (agrees_truth (leftBoolean ▸ leftExact)).bind ?_
      intro decided
      split
      · exact Triple.pure fun _ agrees => ⟨Value.exact_boolean _, agrees⟩
      · refine (second.agrees right straight.2 offers has fuel).bind fun rightValue => ?_
        refine Triple.of_fact fun rightExact => (agrees_truth (rightBoolean ▸ rightExact)).bind ?_
        exact fun result => Triple.pure fun _ agrees => ⟨Value.exact_boolean _, agrees⟩

end Evaluation

section Units

variable {r : Option Ty} {s s' : State} {interpreter : Interpreter} {env : Location} {known : Known}

theorem Lowers.isOperation (e : Expr) (straight : e.isStraight = true) {node : Node}
    (h : Lowers r s (.expr e) [node] s') : node.isOperation = true := by
  match e with
  | .literal _ _ =>
    cases h
    rfl
  | .name _ _ =>
    cases h with
    | name resolved =>
      rcases Scope.resolveName_eq_ok.mp resolved with ⟨_, -, rfl⟩ | ⟨_, _, _, -, -, rfl⟩ <;> rfl
  | .group _ inner =>
    cases h with
    | group lowered => exact lowered.isOperation inner straight
  | .assign _ _ _ =>
    cases h with
    | assign _ _ typed =>
      obtain ⟨-, rfl⟩ := Typing.assign_eq_ok.mp typed
      rfl
  | .unary _ op _ =>
    cases h with
    | unary _ typed =>
      cases op with
      | neg =>
        obtain ⟨-, rfl⟩ := Typing.neg_eq_ok.mp typed
        rfl
      | not =>
        obtain ⟨-, rfl⟩ := Typing.not_eq_ok.mp typed
        rfl
  | .binary _ _ _ _ =>
    cases h with
    | binary _ _ typed =>
      obtain ⟨_, -, rfl⟩ := Typing.binary_eq_ok.mp typed
      rfl
  | .logical _ _ _ _ =>
    cases h with
    | logical _ _ typed =>
      obtain ⟨-, -, rfl⟩ := Typing.logical_eq_ok.mp typed
      rfl

/-- What a unit leaves in the scope: no function, and the types that are known behind it. -/
theorem Lowers.straight_scope {unit : List Stmt}
    (straight : ∀ stmt ∈ unit, stmt.isStraight = true) {nodes : List Node}
    (h : Lowers r s (.stmts unit) nodes s') (offers : OffersBuiltins s.scope)
    (has : HasTypes s.scope known) :
    OffersBuiltins s'.scope ∧ HasTypes s'.scope (known.behind nodes) := by
  induction unit generalizing s known nodes with
  | nil =>
    cases h
    exact ⟨offers, has⟩
  | cons stmt rest ih =>
    obtain ⟨first, others⟩ := List.forall_mem_cons.mp straight
    cases h with
    | moreStmts head tail =>
      cases head with
      | @expr _ _ _ e _ lowered =>
        obtain rfl := lowered.straight_eq e first
        rw [Known.behind_cons_of_isOperation (lowered.isOperation e first)]
        exact ih others tail offers has
      | @bind _ _ _ _ _ x _ value _ type lowered _ =>
        obtain rfl := lowered.straight_eq value first
        rw [Known.behind]
        exact ih others tail offers (has.define x type)
      | _ => cases first

/-- The type of a binding accepts its value. -/
theorem accepts_of_bindingType {scope : Scope} {line : Line} {typeName : Option String}
    {value : Node} {type : Ty} (typed : bindingType scope line typeName value = .ok type) :
    type.accepts value.type = true := by
  cases typeName with
  | none =>
    obtain rfl : value.type = type := by simpa [bindingType] using typed
    exact Ty.accepts_refl _
  | some given =>
    obtain ⟨declared, -, rest⟩ := except_bind_eq_ok.mp typed
    obtain ⟨_, expected, same⟩ := except_bind_eq_ok.mp rest
    obtain rfl := except_pure_eq_ok.mp same
    exact Typing.expectNode_eq_ok.mp expected

theorem agreeing_within {wider : Known} (within : known.Within wider) :
    (agreeing env known).Within (agreeing env wider) :=
  ⟨fun _ _ agrees => agrees.mono within, fun _ _ agrees => agrees.mono within,
    fun _ agrees => agrees.mono within⟩

theorem agrees_declare {name : String} {mutability : Mutability} {value : Value} {type : Ty}
    (kept : (known name).all type.accepts = true) (exact : value.Exact type) :
    Triple (·.Agrees env known) (Eval.declare env name value mutability)
      (fun _ heap => heap.Agrees env (known.insert name type))
      (agreeing env (known.insert name type)) := by
  have within := Known.within_insert kept
  refine Triple.declare (fun heap agrees _ => ?_) fun _ agrees _ => agrees.mono within
  exact (agrees.mono within).setVariable (Known.insert_eq_some.mpr (.inl ⟨rfl, rfl⟩)) exact

/-- A declaration leaves its name unbound if its value stops, and bound to a value of its type
otherwise. -/
theorem agrees_bind (tag : Tag) {name : String} {value : Node} (mutability : Mutability)
    (kept : (known name).all tag.type.accepts = true) (accepts : tag.type.accepts value.type = true)
    (evaluated : ∀ fuel, Triple (·.Agrees env known) (interpreter.evaluate fuel value env)
      (fun result heap => result.Exact value.type ∧ heap.Agrees env known) (agreeing env known))
    (fuel : Nat) :
    Triple (·.Agrees env known) (interpreter.evaluate fuel (.bind tag mutability name value) env)
      (fun _ heap => heap.Agrees env (known.insert name tag.type))
      (agreeing env (known.insert name tag.type)) := by
  have now := Known.within_insert kept
  cases fuel with
  | zero => exact Triple.exhausted fun _ agrees => agrees.mono now
  | succ fuel =>
    have stopping := (evaluated fuel).consequence (fun _ agrees => agrees) (fun _ _ held => held)
      (agreeing_within now)
    refine Triple.located (stopping.bind fun result => Triple.of_fact fun exact => ?_)
    have fitting := exact.of_accepts accepts
    exact (agrees_declare kept fitting).bind fun _ => Triple.pure fun _ agrees => agrees

/-- Wherever a unit stops, what has been bound until then agrees with what is known behind it. -/
theorem Lowers.agrees_unit {unit : List Stmt} (straight : ∀ stmt ∈ unit, stmt.isStraight = true)
    {nodes : List Node} (h : Lowers r s (.stmts unit) nodes s') (offers : OffersBuiltins s.scope)
    (has : HasTypes s.scope known) (kept : known.keepsTypes nodes = true) (fuel : Nat) :
    Triple (·.Agrees env known) (interpreter.evaluateFrom fuel env nodes)
      (fun _ heap => heap.Agrees env (known.behind nodes)) (agreeing env (known.behind nodes)) := by
  induction unit generalizing s known nodes with
  | nil =>
    cases h
    exact Triple.pure fun _ agrees => agrees
  | cons stmt rest ih =>
    obtain ⟨first, others⟩ := List.forall_mem_cons.mp straight
    cases h with
    | moreStmts head tail =>
      cases head with
      | @expr _ _ _ e node lowered =>
        have operation := lowered.isOperation e first
        obtain rfl := lowered.straight_eq e first
        rw [Known.keepsTypes_cons_of_isOperation operation] at kept
        rw [Known.behind_cons_of_isOperation operation]
        have value : Triple (·.Agrees env known) (interpreter.evaluate fuel _ env) _ _ :=
          lowered.agrees e first offers has fuel
        have evaluated := value.consequence (fun _ agrees => agrees) (fun _ _ held => held.2)
          (agreeing_within (Known.within_behind kept))
        rw [Interpreter.evaluateFrom_cons (Node.ne_openModule_of_isOperation operation)]
        refine (Triple.uncaught evaluated).bind fun value => ?_
        exact (ih others tail offers has kept).holding.bind fun values =>
          Triple.pure fun _ agrees => agrees
      | @bind _ _ _ line mutability x _ value valueNode type lowered typed =>
        obtain rfl := lowered.straight_eq value first
        simp only [Known.keepsTypes, Bool.and_eq_true] at kept
        have behind := Known.within_behind kept.2
        have declared : Triple (·.Agrees env known) (interpreter.evaluate fuel
            (.bind ⟨type, line⟩ mutability x valueNode) env) _ _ :=
          agrees_bind ⟨type, line⟩ mutability kept.1 (accepts_of_bindingType typed)
            (lowered.agrees value first offers has) fuel
        have other : ∀ tag name, Node.bind ⟨type, line⟩ mutability x valueNode ≠
            .openModule tag name := by
          intro tag name same
          cases same
        rw [Interpreter.evaluateFrom_cons other]
        refine (Triple.uncaught (declared.consequence (fun _ agrees => agrees)
          (fun _ _ agrees => agrees) (agreeing_within behind))).bind fun value => ?_
        exact (ih others tail offers (has.define x type) kept.2).holding.bind fun values =>
          Triple.pure fun _ agrees => agrees
      | _ => cases first

end Units

end Lowering

end ScriptCore
