import ScriptCore.Machine
import ScriptCore.Proofs.Eval.Operators
import ScriptCore.Proofs.Lowering.Rules
import ScriptCore.Proofs.Node.Typed
import ScriptCore.Proofs.Store.Frames

/-!
# Values and stores of declared types

A sound value is what its type says it is, and a sound callable has a typed body. A value fits a
type that accepts the value's own type; every sound value fits `Unit`. In a sound store every
variable fits its declared type, and every function of a declared name has the declared type.
-/
namespace ScriptCore

/-- Declarations that give each name one type, where host functions have no result that a
program could rely on and no class is a record. -/
structure Declarations.Coherent (declared : Declarations) : Prop where
  vars : ∀ {name type other}, declared.vars name type → declared.vars name other → type = other
  functions : ∀ {name type other}, declared.functions name type →
    declared.functions name other → type = other
  hosts : ∀ {type}, declared.hosts type → type.result = .unit ∨ type.result = .any
  classes : ∀ {type}, declared.classes type → type ∈ ClassTy.builtins

/-- A function whose parameters are declared and whose body is typed. -/
structure FnTy.Sound (declared : Declarations) (type : FnTy) (body : List Node) : Prop where
  parameters : ∀ parameter ∈ type.parameters, declared.vars parameter.1 parameter.2
  body : ∀ node ∈ body, Typed declared (some type.result) node

def Callable.Sound (declared : Declarations) : Callable → Prop
  | .function header body => header.type.Sound declared body
  | .closure header body _ => header.type.Sound declared body
  | .native header => declared.hosts header.type
  | .constructor header => header.made = .string ∧ header.type.result = .string

namespace Value

/-- A scalar has the type of its kind, and there are no objects besides. -/
def Sound (declared : Declarations) : Value → Prop
  | .unit => True
  | .native value type => type = value.type
  | .object _ | .cls _ => False
  | .callable c => c.Sound declared

structure Fits (declared : Declarations) (type : Ty) (value : Value) : Prop where
  sound : value.Sound declared
  accepted : type = .unit ∨ type.accepts value.type = true

variable {declared : Declarations} {value left right : Value} {type : Ty}

theorem Sound.fits_unit (sound : value.Sound declared) : value.Fits declared .unit :=
  ⟨sound, .inl rfl⟩

theorem Sound.fits_any (sound : value.Sound declared) : value.Fits declared .any :=
  ⟨sound, .inr (Ty.any_accepts _)⟩

/-- A value fits whatever accepts a type that it fits. -/
theorem Fits.of_accepts {wider : Ty} (fits : value.Fits declared type)
    (accepts : wider.accepts type = true) : value.Fits declared wider := by
  refine ⟨fits.sound, ?_⟩
  rcases fits.accepted with rfl | accepted
  · rcases Ty.accepts_iff.mp accepts with rfl | rfl
    · exact .inr (Ty.any_accepts _)
    · exact .inl rfl
  · exact .inr (Ty.accepts_trans accepts accepted)

/-- A value that fits a type other than `Unit` and `Any` has that type. -/
theorem Fits.type_eq (fits : value.Fits declared type) (notUnit : type ≠ .unit)
    (notAny : type ≠ .any) : value.type = type :=
  (Ty.accepts_iff_eq notAny).mp (fits.accepted.resolve_left notUnit)

theorem Sound.cases (sound : value.Sound declared) :
    value = .unit ∨ (∃ scalar, value = .ofScalar scalar) ∨
      ∃ c : Callable, value = .callable c ∧ c.Sound declared := by
  cases value with
  | unit => exact .inl rfl
  | native scalar type =>
    cases sound
    exact .inr (.inl ⟨scalar, rfl⟩)
  | callable c => exact .inr (.inr ⟨c, rfl, sound⟩)
  | object => cases sound
  | cls => cases sound

/-- A value of a builtin scalar type is a scalar of that type. -/
theorem Fits.isScalar {builtin : ClassTy} (fits : value.Fits declared (.cls builtin))
    (notUnit : builtin ≠ .unit) (notAny : builtin ≠ .any) :
    ∃ scalar, value = .ofScalar scalar ∧ scalar.type = .cls builtin := by
  have type := fits.type_eq (fun same => notUnit (Ty.cls.inj same))
    (fun same => notAny (Ty.cls.inj same))
  rcases fits.sound.cases with rfl | ⟨scalar, rfl⟩ | ⟨c, rfl, -⟩
  · exact absurd (Ty.cls.inj type).symm notUnit
  · exact ⟨scalar, rfl, type⟩
  · cases type

theorem Fits.isBoolean (fits : value.Fits declared .boolean) : ∃ b, value = .boolean b := by
  obtain ⟨scalar, rfl, type⟩ := fits.isScalar (by decide) (by decide)
  cases scalar with
  | boolean b => exact ⟨b, rfl⟩
  | _ => exact absurd type (by simp only [Scalar.type]; decide)

theorem Fits.isString (fits : value.Fits declared .string) : ∃ text, value = .string text := by
  obtain ⟨scalar, rfl, type⟩ := fits.isScalar (by decide) (by decide)
  cases scalar with
  | string text => exact ⟨text, rfl⟩
  | _ => exact absurd type (by simp only [Scalar.type]; decide)

theorem Fits.isNumber (fits : value.Fits declared type) (number : type.isNumber = true) :
    (type = .int ∧ ∃ n, value = .int n) ∨ (type = .double ∧ ∃ x, value = .double x) := by
  simp only [Ty.isNumber, Bool.or_eq_true, decide_eq_true_eq] at number
  rcases number with rfl | rfl
  · obtain ⟨scalar, rfl, type⟩ := fits.isScalar (by decide) (by decide)
    cases scalar with
    | int n => exact .inl ⟨rfl, n, rfl⟩
    | _ => exact absurd type (by simp only [Scalar.type]; decide)
  · obtain ⟨scalar, rfl, type⟩ := fits.isScalar (by decide) (by decide)
    cases scalar with
    | double x => exact .inr ⟨rfl, x, rfl⟩
    | _ => exact absurd type (by simp only [Scalar.type]; decide)

theorem Fits.asNumber (fits : value.Fits declared type) (number : type.isNumber = true) :
    ∃ x, value.asNumber? = some x := by
  rcases fits.isNumber number with ⟨-, n, rfl⟩ | ⟨-, x, rfl⟩
  · exact ⟨_, rfl⟩
  · exact ⟨x, rfl⟩

/-- A value of a function type is a sound callable of exactly that type. -/
theorem Fits.isCallable {type : FnTy} (fits : value.Fits declared (.fn type)) :
    ∃ c : Callable, value = .callable c ∧ c.Sound declared ∧ c.type = type := by
  have typed := fits.type_eq nofun nofun
  rcases fits.sound.cases with rfl | ⟨scalar, rfl⟩ | ⟨c, rfl, sound⟩
  · cases typed
  · cases scalar <;> cases typed
  · exact ⟨c, rfl, sound, Ty.fn.inj typed⟩

theorem fits_ofScalar (scalar : Scalar) : (ofScalar scalar).Fits declared scalar.type :=
  ⟨rfl, .inr (Ty.accepts_refl _)⟩

theorem fits_int (n : Int64) : (int n).Fits declared .int := fits_ofScalar (.int n)

theorem fits_double (x : Float) : (double x).Fits declared .double := fits_ofScalar (.double x)

theorem fits_boolean (b : Bool) : (boolean b).Fits declared .boolean :=
  fits_ofScalar (.boolean b)

theorem fits_string (text : String) : (string text).Fits declared .string :=
  fits_ofScalar (.string text)

theorem fits_ofLiteral {value : Literal} : (ofLiteral value).Fits declared value.type := by
  cases value with
  | scalar scalar => exact fits_ofScalar scalar
  | unit => exact ⟨trivial, .inl rfl⟩

/-- Arithmetic on numbers gives a double. -/
theorem arithmetic_fits {op : BinaryOp} {x y : Float} (arithmetic : op.isArithmetic = true)
    (first : left.asNumber? = some x) (second : right.asNumber? = some y) :
    ∃ result, binary op left right = .ok result ∧ result.Fits declared .double := by
  cases op <;> cases arithmetic <;>
    simp only [binary, first, second, numeric?, BinaryOp.isEquality, Bool.false_eq_true, if_false,
      Except.ok.injEq, exists_eq_left'] <;>
    exact fits_double _

theorem comparison_fits {op : BinaryOp} {x y : Float} (comparison : op.isComparison = true)
    (first : left.asNumber? = some x) (second : right.asNumber? = some y) :
    ∃ result, binary op left right = .ok result ∧ result.Fits declared .boolean := by
  cases op <;> cases comparison <;>
    simp only [binary, first, second, numeric?, BinaryOp.isEquality, Bool.false_eq_true, if_false,
      Except.ok.injEq, exists_eq_left'] <;>
    exact fits_boolean _

theorem equality_fits {op : BinaryOp} (equality : op.isEquality = true) :
    ∃ result, binary op left right = .ok result ∧ result.Fits declared .boolean := by
  rw [binary, if_pos equality]
  exact ⟨_, rfl, fits_boolean _⟩

theorem concatenation_fits {text : String} :
    ∃ result, binary .add (.string text) right = .ok result ∧ result.Fits declared .string :=
  ⟨.string (text ++ right.display), rfl, fits_string _⟩

theorem negation_fits (fits : value.Fits declared type) (number : type.isNumber = true) :
    ∃ result, unary .neg value = .ok result ∧ result.Fits declared type := by
  rcases fits.isNumber number with ⟨rfl, n, rfl⟩ | ⟨rfl, x, rfl⟩
  · exact ⟨.int (-n), rfl, fits_int _⟩
  · exact ⟨.double (-x), rfl, fits_double _⟩

theorem complement_fits (fits : value.Fits declared .boolean) :
    ∃ result, unary .not value = .ok result ∧ result.Fits declared .boolean := by
  obtain ⟨b, rfl⟩ := fits.isBoolean
  exact ⟨.boolean !b, rfl, fits_boolean _⟩

end Value

namespace Store

/-- A frame whose variables fit their declared types and whose functions of declared names have
the declared types. -/
structure Frame.Sound (declared : Declarations) (frame : Frame) : Prop where
  values : ∀ name value, frame.value? name = some value →
    ∃ type, declared.vars name type ∧ value.Fits declared type
  callables : ∀ name callable, frame.function? name = some callable →
    ∀ type, declared.functions name type → callable.Sound declared ∧ callable.type = type

def Sound (declared : Declarations) (store : Store) : Prop :=
  ∀ location frame, store.frame? location = some frame → frame.Sound declared

variable {declared : Declarations} {store : Store}

theorem Frame.sound_create {enclosing : Option Location} {callSite : Option CallSite} :
    (Frame.create enclosing callSite).Sound declared where
  values := nofun
  callables := nofun

theorem Sound.add (sound : store.Sound declared) {frame : Frame} (new : frame.Sound declared) :
    (store.add frame).Sound declared :=
  forall_frame_add sound new

theorem Sound.update (sound : store.Sound declared) {env : Location} {change : Frame → Frame}
    (keeps : ∀ frame : Frame, frame.Sound declared → (change frame).Sound declared) :
    (store.update env change).Sound declared :=
  forall_frame_update sound keeps

theorem Sound.setVariable (sound : store.Sound declared) {env : Location} {name : String}
    {value : Value} {mutability : Mutability} {type : Ty} (known : declared.vars name type)
    (fits : value.Fits declared type) :
    (store.setVariable env name ⟨value, mutability⟩).Sound declared := by
  refine sound.update fun frame old => ⟨?_, old.callables⟩
  intro other found get
  rcases Frame.of_value?_insert get with ⟨rfl, rfl⟩ | before
  · exact ⟨type, known, fits⟩
  · exact old.values other found before

theorem Sound.declareFunction (sound : store.Sound declared) {env : Location} {name : String}
    {callable : Callable}
    (new : ∀ type, declared.functions name type → callable.Sound declared ∧ callable.type = type) :
    (store.declareFunction env name callable).Sound declared := by
  refine sound.update fun frame old => ⟨old.values, ?_⟩
  intro other found get
  rcases Frame.of_function?_insert get with ⟨rfl, rfl⟩ | before
  · exact new
  · exact old.callables other found before

theorem Sound.expand (sound : store.Sound declared) {env module : Location} :
    (store.expand env module).Sound declared := by
  rw [Store.expand]
  split
  · exact sound
  · exact sound.update fun frame old => ⟨old.values, old.callables⟩

end Store

end ScriptCore
