import ScriptCore.Proofs.Lowering.Resolution
import ScriptCore.Proofs.Node.Layers

/-!
# Lowering resolves through layers

The frames of a scope have the variables that have been declared in the layers around the point that
lowering has come to. So a use that lowering has resolved finds a variable of its type, also from a
function that is called later, unless a scope that the function captures declares the name in the
meantime with another type.
-/
namespace ScriptCore

namespace Node

variable {use : Layers → String → Ty → Bool} {node : Node} {body : List Node} {now : Parameters}
  {outer : Layers}

/-- A node whose uses are known, or the declaration of a variable with such a value. -/
def HasUses (use : Layers → String → Ty → Bool) (node : Node) : Prop :=
  (∃ layers, node.allUses use layers = true) ∨
    ∃ tag mutability name value layers, node = .bind tag mutability name value ∧
      value.allUses use layers = true

theorem hasUses_of_mem (uses : bodyUses use now outer body = true) :
    ∀ node ∈ body, node.HasUses use := by
  induction body generalizing now with
  | nil => exact List.forall_mem_nil _
  | cons node rest ih =>
    rw [List.forall_mem_cons]
    cases node with
    | bind tag mutability name value =>
      rw [bodyUses, Bool.and_eq_true] at uses
      exact ⟨.inr ⟨tag, mutability, name, value, _, rfl, uses.1⟩, ih uses.2⟩
    | _ =>
      rw [bodyUses_cons rfl, Bool.and_eq_true] at uses
      exact ⟨.inl ⟨_, uses.1⟩, ih uses.2⟩

theorem HasUses.parts (uses : node.HasUses use) : ∀ part ∈ node.parts, part.HasUses use := by
  rcases uses with ⟨layers, uses⟩ | ⟨_, _, _, value, layers, rfl, uses⟩
  · cases node with
    | literal | readVariable | readFunction => exact List.forall_mem_nil _
    | assign =>
      rw [allUses, Bool.and_eq_true] at uses
      exact List.forall_mem_singleton.mpr (.inl ⟨layers, uses.1⟩)
    | get | unary | returns =>
      rw [allUses] at uses
      exact List.forall_mem_singleton.mpr (.inl ⟨layers, uses⟩)
    | set | binary | logical =>
      rw [allUses, Bool.and_eq_true] at uses
      refine List.forall_mem_cons.mpr ⟨.inl ⟨layers, uses.1⟩, ?_⟩
      exact List.forall_mem_singleton.mpr (.inl ⟨layers, uses.2⟩)
    | call =>
      rw [allUses, Bool.and_eq_true, argumentUses_iff] at uses
      refine List.forall_mem_cons.mpr ⟨.inl ⟨layers, uses.1⟩, List.forall_mem_map.mpr ?_⟩
      exact fun argument mem => .inl ⟨layers, uses.2 argument mem⟩
    | block | anonymous =>
      rw [allUses] at uses
      exact hasUses_of_mem uses
    | loop =>
      rw [allUses, Bool.and_eq_true] at uses
      exact List.forall_mem_cons.mpr ⟨.inl ⟨layers, uses.1⟩, hasUses_of_mem uses.2⟩
    | branch =>
      simp only [allUses, Bool.and_eq_true] at uses
      refine List.forall_mem_cons.mpr ⟨.inl ⟨layers, uses.1.1⟩, List.forall_mem_append.mpr ?_⟩
      exact ⟨hasUses_of_mem uses.1.2, hasUses_of_mem uses.2⟩
    | this | bind | function | native | record | openModule | useModule =>
      rw [allUses] at uses
      cases uses
  · exact List.forall_mem_singleton.mpr (.inl ⟨layers, uses⟩)

theorem HasUses.admits (uses : node.HasUses use) : Declarations.builtin.Admits node := by
  rcases uses with ⟨layers, uses⟩ | ⟨_, _, _, _, _, rfl, _⟩
  · cases node with
    | anonymous => exact fun _ _ => trivial
    | function | native | record =>
      rw [allUses] at uses
      cases uses
    | _ => trivial
  · trivial

/-- Where all uses are known, no function and no record is declared. -/
theorem admitsAll_of_bodyUses (uses : bodyUses use now outer body = true) :
    Declarations.builtin.AdmitsAll body :=
  fun node mem =>
    (forall_mem_all (P := HasUses use) (fun _ uses => uses.parts) (hasUses_of_mem uses)
      node mem).admits

end Node

namespace Lowering

open Node

/-- The frames of a scope have the variables of these tables, unless one of the tables declares a
name twice. -/
def Mirrors (scope : Scope) (tables : List Parameters) : Prop :=
  (∃ now ∈ tables, ¬ (Parameters.names now).Nodup) ∨
    List.Forall₂ (fun frame now => ∀ name, frame.vars.get? name = Parameters.get? now name)
      scope.frames tables

section Mirrors

variable {scope : Scope} {now : Parameters} {tables : List Parameters} {name : String} {type : Ty}

theorem Mirrors.push (mirrors : Mirrors scope tables) : Mirrors scope.push ([] :: tables) := by
  rcases mirrors with ⟨now, mem, twice⟩ | same
  · exact .inl ⟨now, List.mem_cons_of_mem _ mem, twice⟩
  · exact .inr (.cons (fun _ => rfl) same)

/-- A name that is declared for the second time makes the layers dead. -/
theorem Mirrors.define (mirrors : Mirrors scope (now :: tables)) :
    Mirrors (scope.define name type) ((now ++ [(name, type)]) :: tables) := by
  by_cases absent : name ∈ Parameters.names now
  · refine .inl ⟨_, List.mem_cons_self, fun distinct => ?_⟩
    rw [Parameters.names, List.map_append, List.nodup_append] at distinct
    exact distinct.2.2 name absent name (by simp) rfl
  · rcases mirrors with ⟨table, mem, twice⟩ | same
    · rcases List.mem_cons.mp mem with rfl | outside
      · refine .inl ⟨_, List.mem_cons_self, fun distinct => twice ?_⟩
        rw [Parameters.names, List.map_append] at distinct
        exact (List.nodup_append.mp distinct).1
      · exact .inl ⟨table, List.mem_cons_of_mem _ outside, twice⟩
    · cases same with
      | cons here rest =>
        refine .inr (.cons (fun other => ?_) rest)
        have inserted : (scope.define name type).current.vars.get? other =
            if name = other then some type else scope.current.vars.get? other :=
          Table.get?_insert _ _ _ _
        rw [inserted, Parameters.get?_append, Parameters.get?_singleton, here other]
        by_cases this : name = other
        · subst this
          simp [Parameters.get?_eq_none.mpr absent]
        · simp [this]

theorem Mirrors.enter {s : State} (mirrors : Mirrors s.scope tables) (parameters : Parameters) :
    Mirrors (s.enter parameters).scope (parameters :: tables) := by
  have defined : ∀ (parameters now : Parameters) (scope : Scope), Mirrors scope (now :: tables) →
      Mirrors (parameters.foldl (fun scope parameter => scope.define parameter.1 parameter.2) scope)
        ((now ++ parameters) :: tables) := by
    intro parameters
    induction parameters with
    | nil =>
      intro now scope before
      rwa [List.append_nil]
    | cons parameter rest ih =>
      intro now scope before
      have after := ih (now ++ [parameter]) (scope.define parameter.1 parameter.2) before.define
      rwa [List.append_assoc] at after
  exact defined parameters [] _ mirrors.push

/-- What a scope has for a name is what the layers find. -/
theorem resolves_of_steady {layers : Layers} (mirrors : Mirrors scope (layers.map Layer.now))
    (found : scope.lookup name = .ok type) (steady : layers.steady name type = true) :
    layers.resolves name type = true := by
  rw [Layers.resolves, Bool.or_eq_true]
  rcases mirrors with ⟨now, mem, twice⟩ | same
  · obtain ⟨layer, there, rfl⟩ := List.mem_map.mp mem
    exact .inl (List.any_eq_true.mpr ⟨layer, there, by simpa using twice⟩)
  · refine .inr ?_
    rw [Scope.lookup_eq_ok] at found
    generalize scope.frames = frames at found same
    induction layers generalizing frames with
    | nil =>
      cases same
      cases found
    | cons layer outer ih =>
      cases same with
      | cons here rest =>
        rw [List.findSome?_cons, here name] at found
        rw [Layers.steady] at steady
        rw [Layers.finds]
        cases declared : Parameters.get? layer.now name with
        | some known =>
          rw [declared] at found
          exact decide_eq_true (Option.some.inj found)
        | none =>
          rw [declared] at found steady
          simp only [Option.isSome_none, Bool.false_or, Bool.and_eq_true] at steady
          simp only [Bool.and_eq_true]
          exact ⟨steady.1, ih steady.2 _ found rest⟩

end Mirrors

/-- Lowering from one scope to another has given nodes in which every steady use of a variable finds
one of its type, and that declare nothing. -/
def UsesResolve (scope scope' : Scope) (nodes : List Node) : Prop :=
  ∀ layers : Layers, Mirrors scope (layers.map Layer.now) →
    (∀ node ∈ nodes, node.allUses Layers.steady layers = true) →
    (∀ node ∈ nodes, node.allUses Layers.resolves layers = true) ∧
      Mirrors scope' (layers.map Layer.now)

section Uses

variable {a b c : Scope} {node : Node} {nodes first second : List Node} {name : String} {tag : Tag}

theorem UsesResolve.nil : UsesResolve a a [] :=
  fun _ mirrors _ => ⟨List.forall_mem_nil _, mirrors⟩

theorem UsesResolve.append (before : UsesResolve a b first) (behind : UsesResolve b c second) :
    UsesResolve a c (first ++ second) := by
  intro layers mirrors steady
  obtain ⟨steadyFirst, steadySecond⟩ := List.forall_mem_append.mp steady
  obtain ⟨resolved, between⟩ := before layers mirrors steadyFirst
  obtain ⟨resolved', after⟩ := behind layers between steadySecond
  exact ⟨List.forall_mem_append.mpr ⟨resolved, resolved'⟩, after⟩

theorem usesResolve_singleton :
    UsesResolve a b [node] ↔ ∀ layers : Layers, Mirrors a (layers.map Layer.now) →
      node.allUses Layers.steady layers = true →
      node.allUses Layers.resolves layers = true ∧ Mirrors b (layers.map Layer.now) := by
  simp only [UsesResolve, List.forall_mem_singleton]

/-- A node whose uses are those of other nodes. -/
theorem UsesResolve.of_uses (resolve : UsesResolve a b nodes)
    (uses : ∀ use layers, node.allUses use layers = true ↔
      ∀ part ∈ nodes, part.allUses use layers = true) : UsesResolve a b [node] := by
  rw [usesResolve_singleton]
  intro layers mirrors steady
  obtain ⟨resolved, after⟩ := resolve layers mirrors ((uses _ _).mp steady)
  exact ⟨(uses _ _).mpr resolved, after⟩

/-- A node without uses of variables. -/
theorem usesResolve_of_no_use (uses : ∀ use layers, node.allUses use layers = true) :
    UsesResolve a a [node] :=
  UsesResolve.nil.of_uses fun use layers => iff_of_true (uses use layers) (List.forall_mem_nil _)

/-- A node that nothing is claimed of. -/
theorem usesResolve_of_refused (refused : ∀ layers, node.allUses Layers.steady layers = false) :
    UsesResolve a b [node] := by
  rw [usesResolve_singleton]
  intro layers _ steady
  rw [refused] at steady
  cases steady

theorem usesResolve_readVariable (found : a.lookup name = .ok tag.type) :
    UsesResolve a a [.readVariable tag name] := by
  rw [usesResolve_singleton]
  intro layers mirrors steady
  rw [allUses] at steady ⊢
  exact ⟨resolves_of_steady mirrors found steady, mirrors⟩

theorem usesResolve_readFunction : UsesResolve a a [.readFunction tag name] :=
  usesResolve_of_no_use fun _ _ => by rw [allUses]

theorem usesResolve_unary {line : Line} {op : UnaryOp} {right : Node}
    (typed : Typing.unary line op right = .ok node) (resolve : UsesResolve a b [right]) :
    bindsOf [node] = [] ∧ UsesResolve a b [node] := by
  cases op with
  | neg =>
    obtain ⟨-, rfl⟩ := Typing.neg_eq_ok.mp typed
    exact ⟨rfl, resolve.of_uses fun _ _ => by simp [allUses]⟩
  | not =>
    obtain ⟨-, rfl⟩ := Typing.not_eq_ok.mp typed
    exact ⟨rfl, resolve.of_uses fun _ _ => by simp [allUses]⟩

theorem usesResolve_call {line : Line} {callee : Callee} {arguments : List Node}
    (typed : Typing.call line callee arguments = .ok node)
    (resolve : UsesResolve a b (arguments ++ [callee.node])) :
    bindsOf [node] = [] ∧ UsesResolve a b [node] := by
  obtain ⟨arity, -, rfl⟩ := Typing.call_eq_ok.mp typed
  refine ⟨rfl, resolve.of_uses fun use layers => ?_⟩
  have values : ((Parameters.names callee.type.parameters).zip arguments).map Prod.snd =
      arguments :=
    List.map_snd_zip (by simp [Parameters.names, arity])
  have each := List.forall_mem_map (l := (Parameters.names callee.type.parameters).zip arguments)
    (f := Prod.snd) (P := fun part => Node.allUses use layers part = true)
  rw [values] at each
  rw [allUses, Bool.and_eq_true, argumentUses_iff, ← each, List.forall_mem_append,
    List.forall_mem_singleton, and_comm]

end Uses

/-- Where steady uses resolve in what a piece lowers to. -/
def Piece.Resolves (s : State) (nodes : List Node) (s' : State) : Piece → Prop
  | expr _ | exprs _ => bindsOf nodes = [] ∧ UsesResolve s.scope s'.scope nodes
  | stmt _ =>
    (bindsOf nodes = [] ∧ UsesResolve s.scope s'.scope nodes) ∨
      ∃ tag mutability name value, nodes = [.bind tag mutability name value] ∧
        ∃ between, UsesResolve s.scope between [value] ∧ s'.scope = between.define name tag.type
  | stmts _ => ∀ now outer, Mirrors s.scope (now :: outer.map Layer.now) →
    bodyUses Layers.steady now outer nodes = true → bodyUses Layers.resolves now outer nodes = true

/-- A body that is lowered in a frame of its own. -/
theorem usesResolve_body {s s' : State} {parameters : Parameters} {nodes : List Node}
    {body : List Stmt} (resolve : Piece.Resolves (s.enter parameters) nodes s' (.stmts body))
    {layers : Layers} (mirrors : Mirrors s.scope (layers.map Layer.now))
    (steady : bodyUses Layers.steady parameters layers nodes = true) :
    bodyUses Layers.resolves parameters layers nodes = true :=
  resolve parameters layers (mirrors.enter parameters) steady

/-- Every steady use of a variable in what a piece lowers to finds one of its type. -/
theorem Lowers.usesResolve {r : Option Ty} {s s' : State} {piece : Piece} {nodes : List Node}
    (h : Lowers r s piece nodes s') : piece.Resolves s nodes s' := by
  induction h with
  | literal => exact ⟨rfl, usesResolve_of_no_use fun _ _ => by rw [allUses]⟩
  | name resolved =>
    rcases Scope.resolveName_eq_ok.mp resolved with ⟨type, found, rfl⟩ | ⟨_, _, _, -, -, rfl⟩
    · exact ⟨rfl, usesResolve_readVariable found⟩
    · exact ⟨rfl, usesResolve_readFunction⟩
  | this => exact ⟨rfl, usesResolve_of_refused fun _ => by rw [allUses]⟩
  | group _ ih => exact ih
  | assign resolved _ typed ih =>
    obtain ⟨-, rfl⟩ := Typing.assign_eq_ok.mp typed
    have found := Scope.lookup_eq_ok.mpr (Scope.resolveVariable_eq_ok.mp resolved)
    refine ⟨rfl, usesResolve_singleton.mpr fun layers mirrors steady => ?_⟩
    rw [allUses, Bool.and_eq_true] at steady ⊢
    obtain ⟨value, after⟩ := usesResolve_singleton.mp ih.2 layers mirrors steady.1
    exact ⟨⟨value, resolves_of_steady mirrors found steady.2⟩, after⟩
  | unary _ typed ih =>
    exact usesResolve_unary typed ih.2
  | binary _ _ typed ihLeft ihRight =>
    obtain ⟨_, -, rfl⟩ := Typing.binary_eq_ok.mp typed
    exact ⟨rfl, (ihLeft.2.append ihRight.2).of_uses fun _ _ => by simp [allUses]⟩
  | logical _ _ typed ihLeft ihRight =>
    obtain ⟨-, -, rfl⟩ := Typing.logical_eq_ok.mp typed
    exact ⟨rfl, (ihLeft.2.append ihRight.2).of_uses fun _ _ => by simp [allUses]⟩
  | get _ _ ih => exact ⟨rfl, ih.2.of_uses fun _ _ => by simp [allUses]⟩
  | set _ _ _ typed ihReceiver ihValue =>
    obtain ⟨-, rfl⟩ := Typing.setField_eq_ok.mp typed
    exact ⟨rfl, (ihReceiver.2.append ihValue.2).of_uses fun _ _ => by simp [allUses]⟩
  | callMethod _ _ resolved typed ihReceiver ihArguments =>
    obtain ⟨_, -, rfl⟩ := Scope.resolveMethod_eq_ok.mp resolved
    have values := ihReceiver.2.append ihArguments.2
    exact usesResolve_call typed (values.append usesResolve_readFunction)
  | callName _ resolved typed ih =>
    rcases Scope.resolveCallee_eq_ok.mp resolved with ⟨_, -, rfl⟩ | ⟨_, -, found, rfl⟩
    · exact usesResolve_call typed (ih.2.append usesResolve_readFunction)
    · exact usesResolve_call typed (ih.2.append (usesResolve_readVariable found))
  | callValue _ _ _ _ callable typed ihArguments ihCallee =>
    obtain ⟨_, -, rfl⟩ := Callee.ofNode_eq_ok.mp callable
    exact usesResolve_call typed (ihArguments.2.append ihCallee.2)
  | branch test _ whenTrue whenFalse typed ihTest ihTrue ihFalse =>
    obtain ⟨_, -, rfl⟩ := Typing.branch_eq_ok.mp typed
    refine ⟨rfl, usesResolve_singleton.mpr fun layers mirrors steady => ?_⟩
    simp only [allUses, Bool.and_eq_true] at steady ⊢
    obtain ⟨⟨condition, first⟩, second⟩ := steady
    obtain ⟨tested, between⟩ := usesResolve_singleton.mp ihTest.2 layers mirrors condition
    have behind := scope_leave whenTrue.outer
    rw [scope_leave whenFalse.outer, behind]
    refine ⟨⟨⟨tested, usesResolve_body ihTrue between first⟩, ?_⟩, between⟩
    exact usesResolve_body ihFalse (behind ▸ between) second
  | function | native => exact ⟨rfl, usesResolve_of_refused fun _ => by rw [allUses]⟩
  | anonymous _ lowered _ ih =>
    refine ⟨rfl, usesResolve_singleton.mpr fun layers mirrors steady => ?_⟩
    rw [allUses] at steady ⊢
    rw [scope_leave lowered.outer]
    have captured : (layers.map Layer.capture).map Layer.now = layers.map Layer.now := by
      simp [Layer.capture]
    exact ⟨usesResolve_body ih (captured ▸ mirrors) steady, mirrors⟩
  | noExprs => exact ⟨rfl, .nil⟩
  | moreExprs _ _ ihHead ihTail =>
    refine ⟨?_, ihHead.2.append ihTail.2⟩
    have binds := ihHead.1
    rw [bindsOf_cons, ihTail.1]
    exact binds
  | expr _ ih => exact .inl ih
  | block lowered ih =>
    refine .inl ⟨rfl, usesResolve_singleton.mpr fun layers mirrors steady => ?_⟩
    rw [allUses] at steady ⊢
    rw [scope_leave lowered.outer]
    exact ⟨usesResolve_body ih mirrors steady, mirrors⟩
  | loop _ _ lowered ihTest ih =>
    refine .inl ⟨rfl, usesResolve_singleton.mpr fun layers mirrors steady => ?_⟩
    rw [allUses, Bool.and_eq_true] at steady ⊢
    obtain ⟨tested, between⟩ := usesResolve_singleton.mp ihTest.2 layers mirrors steady.1
    rw [scope_leave lowered.outer]
    exact ⟨⟨tested, usesResolve_body ih between steady.2⟩, between⟩
  | returns _ typed ih =>
    obtain ⟨-, rfl⟩ := Typing.returns_eq_ok.mp typed
    exact .inl ⟨rfl, ih.2.of_uses fun _ _ => by simp [allUses]⟩
  | bind _ _ ih => exact .inr ⟨_, _, _, _, rfl, _, ih.2, rfl⟩
  | useModule | openModule | record =>
    exact .inl ⟨rfl, usesResolve_of_refused fun _ => by rw [allUses]⟩
  | noStmts => exact fun _ _ _ _ => by rw [bodyUses]
  | @moreStmts _ _ _ _ _ _ node nodes _ _ ihHead ihTail =>
    intro now outer mirrors steady
    rcases ihHead with ⟨binds, resolve⟩ | ⟨tag, _, name, value, same, between, resolve, after⟩
    · have declares : node.binds = [] := by simpa [bindsOf] using binds
      rw [bodyUses_cons declares, Bool.and_eq_true] at steady ⊢
      obtain ⟨head, behind⟩ :=
        usesResolve_singleton.mp resolve (⟨now, bindsOf nodes, false⟩ :: outer) mirrors steady.1
      exact ⟨head, ihTail now outer behind steady.2⟩
    · cases same
      rw [bodyUses, Bool.and_eq_true] at steady ⊢
      obtain ⟨head, behind⟩ := usesResolve_singleton.mp resolve
        (⟨now, (name, tag.type) :: bindsOf nodes, false⟩ :: outer) mirrors steady.1
      exact ⟨head, ihTail _ outer (after ▸ behind.define) steady.2⟩

end Lowering

end ScriptCore
