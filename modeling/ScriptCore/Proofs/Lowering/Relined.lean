import ScriptCore.Proofs.Attempt
import ScriptCore.Proofs.Lowering.Returns
import ScriptCore.Proofs.Node.Relined

/-!
# Lowering on other lines

Lowering a tree that has been moved to other lines leads to the same scope, and to the same nodes on
the other lines or to the same error on its other line (`lowerStmts_relined`).
-/
namespace ScriptCore

def CompileError.mapLine (f : Line → Line) (e : CompileError) : CompileError :=
  { e with line := f e.line }

section Returns

variable (tests : Bool) (f : Line → Line)

mutual

theorem Expr.hasReturn_mapLines (e : Expr) :
    (e.mapLines f).hasReturn tests = e.hasReturn tests := by
  cases e <;>
    simp [Expr.mapLines, Expr.hasReturn, Expr.hasReturn_mapLines, Expr.anyHasReturn_mapLinesAll,
      Stmt.anyHasReturn_mapLinesAll]

theorem Expr.anyHasReturn_mapLinesAll (es : List Expr) :
    Expr.anyHasReturn tests (Expr.mapLinesAll f es) = Expr.anyHasReturn tests es := by
  cases es <;>
    simp [Expr.mapLinesAll, Expr.anyHasReturn, Expr.hasReturn_mapLines,
      Expr.anyHasReturn_mapLinesAll]

theorem Stmt.hasReturn_mapLines (stmt : Stmt) :
    (stmt.mapLines f).hasReturn tests = stmt.hasReturn tests := by
  cases stmt <;>
    simp [Stmt.mapLines, Stmt.hasReturn, Expr.hasReturn_mapLines, Stmt.anyHasReturn_mapLinesAll]

theorem Stmt.anyHasReturn_mapLinesAll (stmts : List Stmt) :
    Stmt.anyHasReturn tests (Stmt.mapLinesAll f stmts) = Stmt.anyHasReturn tests stmts := by
  cases stmts <;>
    simp [Stmt.mapLinesAll, Stmt.anyHasReturn, Stmt.hasReturn_mapLines,
      Stmt.anyHasReturn_mapLinesAll]

end

end Returns

namespace Lowering

/-- Two checks or rules end with results that match, or with one error on two lines. -/
abbrev Moves {α α' : Type} (f : Line → Line) (results : α → α' → Prop) :
    Except CompileError α → Except CompileError α' → Prop :=
  Outcome (fun e e' => e' = e.mapLine f) results

variable {f : Line → Line} {line : Line} {name : String} {scope : Scope}

section Rules

variable {left left' right right' node node' : Node} {body body' : List Node} {expected : Ty}

theorem moves_expectAccepts (expected found : Ty) :
    Moves f Eq (Typing.expectAccepts expected found line)
      (Typing.expectAccepts expected found (f line)) := by
  rw [Typing.expectAccepts, Typing.expectAccepts]
  split
  · exact .ok rfl
  · exact .error rfl

theorem moves_expectNode (expected : Ty) (relined : Node.Relined f node node') :
    Moves f Eq (Typing.expectNode expected node) (Typing.expectNode expected node') := by
  rw [Typing.expectNode, Typing.expectNode, relined.type_eq, relined.line_eq]
  exact moves_expectAccepts expected node.type

theorem moves_binaryType (op : BinaryOp) (left right : Ty) :
    Moves f Eq (Typing.binaryType op left right line)
      (Typing.binaryType op left right (f line)) := by
  simp only [Typing.binaryType]
  split_ifs <;> first | exact .ok rfl | exact .error rfl

theorem moves_binary (op : BinaryOp) (first : Node.Relined f left left')
    (second : Node.Relined f right right') :
    Moves f (Node.Relined f) (Typing.binary line op left right)
      (Typing.binary (f line) op left' right') := by
  rw [Typing.binary, Typing.binary, first.type_eq, second.type_eq]
  refine (moves_binaryType op _ _).bind ?_
  rintro type _ rfl
  exact .ok (.binary first second)

theorem moves_logical (op : LogicalOp) (first : Node.Relined f left left')
    (second : Node.Relined f right right') :
    Moves f (Node.Relined f) (Typing.logical line op left right)
      (Typing.logical (f line) op left' right') := by
  refine (moves_expectNode .boolean first).bind fun _ _ _ => ?_
  refine (moves_expectNode .boolean second).bind fun _ _ _ => ?_
  exact .ok (.logical first second)

theorem moves_unary (op : UnaryOp) (below : Node.Relined f right right') :
    Moves f (Node.Relined f) (Typing.unary line op right) (Typing.unary (f line) op right') := by
  cases op with
  | not =>
    refine (moves_expectNode .boolean below).bind fun _ _ _ => ?_
    exact .ok (.unary below)
  | neg =>
    rw [Typing.unary, Typing.unary, below.type_eq, below.line_eq]
    split
    · exact .ok (.unary below)
    · exact .error rfl

theorem moves_fieldType (receiver : Ty) (name : String) :
    Moves f Eq (Typing.fieldType receiver name line) (Typing.fieldType receiver name (f line)) := by
  rw [Typing.fieldType, Typing.fieldType]
  split
  · exact .ok rfl
  · exact .error rfl

theorem moves_assign (expected : Ty) (below : Node.Relined f node node') :
    Moves f (Node.Relined f) (Typing.assign line name expected node)
      (Typing.assign (f line) name expected node') := by
  refine (moves_expectNode expected below).bind fun _ _ _ => ?_
  exact .ok (.assign below)

theorem moves_setField (expected : Ty) (first : Node.Relined f left left')
    (second : Node.Relined f right right') :
    Moves f (Node.Relined f) (Typing.setField line left name expected right)
      (Typing.setField (f line) left' name expected right') := by
  refine (moves_expectNode expected second).bind fun _ _ _ => ?_
  exact .ok (.set first second)

/-- The error of a branch is on the line of the last node of its second body. -/
theorem moves_branchType (first : List.Forall₂ (Node.Relined f) body body')
    {other other' : List Node} (second : List.Forall₂ (Node.Relined f) other other') :
    Moves f Eq (Typing.branchType body other line) (Typing.branchType body' other' (f line)) := by
  have last : (other'.getLast?.map Node.line).getD (f line) =
      f ((other.getLast?.map Node.line).getD line) := by
    have ends : Option.Rel (fun reported reported' => reported' = f reported)
        (other.getLast?.map Node.line) (other'.getLast?.map Node.line) :=
      rel_map (rel_getLast? second) fun _ _ same => same.line_eq
    exact rel_getD ends rfl
  rw [Typing.branchType, Typing.branchType, Node.valueType?_of_forall₂ first,
    Node.valueType?_of_forall₂ second, last]
  split
  · exact (moves_expectAccepts _ _).bind fun _ _ _ => .ok rfl
  · exact .ok rfl

theorem moves_branch (test : Node.Relined f node node')
    (first : List.Forall₂ (Node.Relined f) body body') {other other' : List Node}
    (second : List.Forall₂ (Node.Relined f) other other') :
    Moves f (Node.Relined f) (Typing.branch line node body other)
      (Typing.branch (f line) node' body' other') := by
  refine (moves_branchType first second).bind ?_
  rintro type _ rfl
  exact .ok (.branch test first second)

theorem moves_checkArguments (parameters : List Ty)
    (given : List.Forall₂ (Node.Relined f) body body') :
    Moves f Eq (Typing.checkArguments parameters body)
      (Typing.checkArguments parameters body') := by
  induction parameters generalizing body body' with
  | nil => cases given <;> exact .ok rfl
  | cons parameter parameters ih =>
    cases given with
    | nil => exact .ok rfl
    | cons first rest =>
      rw [Typing.checkArguments, Typing.checkArguments]
      exact (moves_expectNode parameter first).bind fun _ _ _ => ih rest

theorem moves_keyArguments (parameters : List String)
    (given : List.Forall₂ (Node.Relined f) body body') :
    Moves f (fun keyed keyed' => keyed'.map Prod.fst = keyed.map Prod.fst ∧
        List.Forall₂ (Node.Relined f) (keyed.map Prod.snd) (keyed'.map Prod.snd))
      (Typing.keyArguments line parameters body)
      (Typing.keyArguments (f line) parameters body') := by
  rw [Typing.keyArguments, Typing.keyArguments, given.length_eq]
  split
  · exact .error rfl
  · split
    · exact .error rfl
    · have arity : body'.length = parameters.length := by omega
      have arity' : body.length = parameters.length := given.length_eq.trans arity
      refine .ok ⟨?_, ?_⟩
      · rw [List.map_fst_zip (Nat.le_of_eq arity.symm), List.map_fst_zip (Nat.le_of_eq arity'.symm)]
      · rwa [List.map_snd_zip (Nat.le_of_eq arity), List.map_snd_zip (Nat.le_of_eq arity')]

/-- Two callees of one type on two lines. -/
structure CalleeRelined (f : Line → Line) (callee callee' : Callee) : Prop where
  node : Node.Relined f callee.node callee'.node
  type : callee'.type = callee.type

theorem moves_call {callee callee' : Callee} (called : CalleeRelined f callee callee')
    (given : List.Forall₂ (Node.Relined f) body body') :
    Moves f (Node.Relined f) (Typing.call line callee body)
      (Typing.call (f line) callee' body') := by
  rw [Typing.call, Typing.call, called.type]
  refine (moves_checkArguments _ given).bind fun _ _ _ => ?_
  refine (moves_keyArguments _ given).bind ?_
  rintro keyed keyed' ⟨keys, values⟩
  exact .ok (.call called.node keys values)

theorem moves_returns (returned : Option Ty) (below : Node.Relined f node node') :
    Moves f (Node.Relined f) (Typing.returns line returned node)
      (Typing.returns (f line) returned node') := by
  have relined : Node.Relined f (.returns ⟨node.type, line⟩ node)
      (.returns ⟨node'.type, f line⟩ node') := by
    rw [below.type_eq]
    exact .returns below
  cases returned with
  | none => exact .ok relined
  | some type => exact (moves_expectNode type below).bind fun _ _ _ => .ok relined

end Rules

section Resolution

theorem moves_resolveType (name : String) :
    Moves f Eq (scope.resolveType line name) (scope.resolveType (f line) name) := by
  rw [Scope.resolveType, Scope.resolveType]
  rcases scope.lookupType name with (_ | _) | type
  · exact .error rfl
  · exact .error rfl
  · exact .ok rfl

theorem moves_resolveVariable (name : String) :
    Moves f Eq (scope.resolveVariable line name) (scope.resolveVariable (f line) name) := by
  rw [Scope.resolveVariable, Scope.resolveVariable]
  rcases scope.lookup name with (_ | _) | type
  · exact .error rfl
  · exact .error rfl
  · exact .ok rfl

theorem moves_resolveParameters (known : Parameters) (parameters : List (String × String)) :
    Moves f Eq (scope.resolveParameters line known parameters)
      (scope.resolveParameters (f line) known parameters) := by
  induction parameters generalizing known with
  | nil => exact .ok rfl
  | cons parameter rest ih =>
    obtain ⟨name, typeName⟩ := parameter
    rw [Scope.resolveParameters, Scope.resolveParameters]
    split
    · exact .error rfl
    · refine (moves_resolveType typeName).bind ?_
      rintro type _ rfl
      exact ih _

theorem moves_resolveReceiver (name : Option String) :
    Moves f Eq (scope.resolveReceiver line name) (scope.resolveReceiver (f line) name) := by
  cases name with
  | none => exact .ok rfl
  | some name =>
    refine (moves_resolveType name).bind ?_
    rintro type _ rfl
    exact .ok rfl

theorem moves_resolveFunctionType (receiver : Option Ty) (signature : Signature) :
    Moves f Eq (scope.resolveFunctionType line receiver signature)
      (scope.resolveFunctionType (f line) receiver signature) := by
  refine (moves_resolveParameters _ signature.parameters).bind ?_
  rintro parameters _ rfl
  have result : Moves f Eq (scope.resolveResult line signature.result)
      (scope.resolveResult (f line) signature.result) := by
    cases signature.result with
    | none => exact .ok rfl
    | some name => exact moves_resolveType name
  refine result.bind ?_
  rintro type _ rfl
  exact .ok rfl

theorem moves_resolveName (name : String) :
    Moves f (Node.Relined f) (scope.resolveName line name) (scope.resolveName (f line) name) := by
  rw [Scope.resolveName, Scope.resolveName]
  rcases scope.lookup name with (_ | _) | type
  · rcases scope.overloads name with _ | ⟨overload, _⟩
    · exact .error rfl
    · exact .ok .readFunction
  · rcases scope.overloads name with _ | ⟨overload, _⟩
    · exact .error rfl
    · exact .ok .readFunction
  · exact .ok .readVariable

theorem moves_ofNode {node node' : Node} (relined : Node.Relined f node node') :
    Moves f (CalleeRelined f) (Callee.ofNode node) (Callee.ofNode node') := by
  rw [Callee.ofNode, Callee.ofNode, relined.type_eq, relined.line_eq]
  cases node.type.asFunction? with
  | none => exact .error rfl
  | some type => exact .ok ⟨relined, rfl⟩

theorem calleeRelined_ofOverload (overload : Overload) :
    CalleeRelined f (.ofOverload line overload) (.ofOverload (f line) overload) :=
  ⟨.readFunction, rfl⟩

theorem moves_resolveCallee (name : String) (arguments : List Ty) :
    Moves f (CalleeRelined f) (scope.resolveCallee line name arguments)
      (scope.resolveCallee (f line) name arguments) := by
  rw [Scope.resolveCallee, Scope.resolveCallee]
  rcases scope.overloads name with _ | ⟨overload, others⟩
  · rcases scope.lookup name with _ | type
    · exact .error rfl
    · exact moves_ofNode .readVariable
  · dsimp only
    rcases Overload.firstMatch? (overload :: others) arguments none with _ | fitting
    · exact .error rfl
    · exact .ok (calleeRelined_ofOverload fitting)

theorem moves_resolveMethod (receiver : Ty) (name : String) (arguments : List Ty) :
    Moves f (CalleeRelined f) (scope.resolveMethod line receiver name arguments)
      (scope.resolveMethod (f line) receiver name arguments) := by
  rw [Scope.resolveMethod, Scope.resolveMethod]
  rcases Overload.firstMatch? (scope.extensions receiver name) arguments (some receiver) with
    _ | fitting
  · exact .error rfl
  · exact .ok (calleeRelined_ofOverload fitting)

end Resolution

section Steps

variable {α α' : Type}

/-- Steps of lowering that lead from one state to one state, with results that match or with one
error on two lines. -/
abbrev Parallel (f : Line → Line) (results : α → α' → Prop) : Lower α → Lower α' → Prop :=
  Attempt.Matches Eq (fun e e' => e' = e.mapLine f) results

theorem parallel_inScope {results : α → α' → Prop} {query : Scope → Except CompileError α}
    {query' : Scope → Except CompileError α'}
    (moves : ∀ scope, Moves f results (query scope) (query' scope)) :
    Parallel f results (inScope query) (inScope query') := by
  rintro s _ rfl
  exact ⟨moves s.scope, rfl⟩

theorem parallel_inFrame {results : α → α' → Prop} {step : Lower α} {step' : Lower α'}
    (parallel : Parallel f results step step') :
    Parallel f results (inFrame step) (inFrame step') := by
  rintro s _ rfl
  obtain ⟨ended, later⟩ := parallel { s with scope := s.scope.push } _ rfl
  exact ⟨ended, by simp only [inFrame, later]⟩

theorem parallel_self (step : Lower α) (done : ∀ s, ∃ a, (step s).1 = .ok a) :
    Parallel f Eq step step := by
  rintro s _ rfl
  obtain ⟨a, ended⟩ := done s
  exact ⟨ended ▸ .ok rfl, rfl⟩

end Steps

section Bodies

variable {r : Option Ty} {body : List Stmt} {nodes nodes' : List Node} {type : FnTy}

theorem moves_requireReturn (result : Ty)
    (returns : Node.anyContainsReturn nodes' = Node.anyContainsReturn nodes) :
    Moves f Eq (requireReturn name line result nodes)
      (requireReturn name (f line) result nodes') := by
  rw [requireReturn, requireReturn, returns]
  split
  · exact .ok rfl
  · exact .error rfl

/-- A body that gets a return at its end gets it on any line. -/
theorem moves_completeBody (bodies : List.Forall₂ (Node.Relined f) nodes nodes')
    (returns : Node.anyContainsReturn nodes' = Node.anyContainsReturn nodes) :
    Moves f (fun completed completed' => ∀ tag header, header.type = type →
        Node.Relined f (.function tag header completed)
          (.function (tag.mapLine f) (header.mapLine f) completed'))
      (completeBody name line type nodes) (completeBody name (f line) type nodes') := by
  refine (moves_requireReturn type.result returns).bind fun _ _ _ => ?_
  rw [returns]
  split
  · rename_i lacks
    obtain ⟨receiver, none⟩ : type.receiver.isSome = true ∧
        Node.anyContainsReturn nodes = false := by simpa using lacks
    refine .ok fun tag header same => ?_
    exact .extension (same ▸ receiver) none bodies
  · exact .ok fun tag header _ => .function bodies

end Bodies

section Declarations

theorem parallel_changeScope (change : Scope → Scope) :
    Parallel f Eq (changeScope change) (changeScope change) :=
  parallel_self _ fun _ => ⟨(), rfl⟩

theorem parallel_freshId : Parallel f Eq freshId freshId := parallel_self _ fun s => ⟨s.nextId, rfl⟩

theorem parallel_declareFunction (name : String) (type : FnTy) :
    Parallel f Eq (declareFunction name type) (declareFunction name type) :=
  parallel_self _ fun s => ⟨(s.scope.nextOverload name type).name, rfl⟩

theorem parallel_lowerNative (name : String) (signature : Signature) :
    Parallel f (Node.Relined f) (lowerNative line name signature)
      (lowerNative (f line) name signature) := by
  refine (parallel_inScope fun scope => moves_resolveFunctionType none signature).bind ?_
  rintro type _ rfl
  refine (parallel_declareFunction name type).bind ?_
  rintro indexed _ rfl
  refine parallel_freshId.bind ?_
  rintro id _ rfl
  exact .pure .native

theorem parallel_lowerRecord (name : String) (fields : List (String × String)) :
    Parallel f (Node.Relined f) (lowerRecord line name fields)
      (lowerRecord (f line) name fields) := by
  rw [lowerRecord, lowerRecord]
  split
  · exact .fail rfl
  · refine (parallel_inScope fun scope => moves_resolveParameters [] fields).bind ?_
    rintro resolved _ rfl
    refine (parallel_changeScope _).bind fun _ _ _ => ?_
    exact .pure .record

theorem moves_bindingType {value value' : Node} (typeName : Option String)
    (relined : Node.Relined f value value') :
    Moves f Eq (bindingType scope line typeName value)
      (bindingType scope (f line) typeName value') := by
  cases typeName with
  | none => exact .ok relined.type_eq.symm
  | some given =>
    refine (moves_resolveType given).bind ?_
    rintro declared _ rfl
    exact (moves_expectNode declared relined).bind fun _ _ _ => .ok rfl

theorem parallel_lowerBinding {value value' : Node} (mutability : Mutability) (name : String)
    (typeName : Option String) (relined : Node.Relined f value value') :
    Parallel f (Node.Relined f) (lowerBinding line mutability name typeName value)
      (lowerBinding (f line) mutability name typeName value') := by
  refine (parallel_inScope fun scope => moves_bindingType typeName relined).bind ?_
  rintro type _ rfl
  refine (parallel_changeScope _).bind fun _ _ _ => ?_
  exact .pure (.bind relined)

/-- Statements on other lines contain a return exactly when the original ones do. -/
theorem parallel_body {r : Option Ty} {body : List Stmt}
    (parallel : Parallel f (List.Forall₂ (Node.Relined f)) (lowerStmts r body)
      (lowerStmts r (Stmt.mapLinesAll f body))) (parameters : Parameters) :
    Parallel f (fun nodes nodes' => List.Forall₂ (Node.Relined f) nodes nodes' ∧
        Node.anyContainsReturn nodes' = Node.anyContainsReturn nodes)
      (inFrame do defineParameters parameters; lowerStmts r body)
      (inFrame do defineParameters parameters; lowerStmts r (Stmt.mapLinesAll f body)) := by
  refine parallel_inFrame ((parallel_changeScope _).bind fun _ _ _ => ?_)
  rintro s _ rfl
  rcases parallel.run (rfl : s = s) with
    ⟨nodes, nodes', _, _, ran, ran', bodies, later⟩ | ⟨_, _, _, _, ran, ran', same, later⟩
  · have returns : Node.anyContainsReturn nodes' = Node.anyContainsReturn nodes := by
      rw [(hasReturn_of_lowerStmts ran).1, (hasReturn_of_lowerStmts ran').1,
        Stmt.anyHasReturn_mapLinesAll]
    rw [ran, ran']
    exact ⟨.ok ⟨bodies, returns⟩, later⟩
  · rw [ran, ran']
    exact ⟨.error same, later⟩

end Declarations

section Callees

/-- Only a field is moved to a field. -/
theorem mapLines_ne_get {callee : Expr}
    (other : ∀ line receiver name, callee ≠ .get line receiver name) :
    ∀ line receiver name, callee.mapLines f ≠ .get line receiver name := by
  intro line receiver name
  cases callee <;> simp_all [Expr.mapLines]

/-- Only a name is moved to a name. -/
theorem mapLines_ne_name {callee : Expr} (other : ∀ line name, callee ≠ .name line name) :
    ∀ line name, callee.mapLines f ≠ .name line name := by
  intro line name
  cases callee <;> simp_all [Expr.mapLines]

end Callees

mutual

/-- Lowering an expression on other lines. -/
theorem lowerExpr_relined (f : Line → Line) (r : Option Ty) (e : Expr) :
    Parallel f (Node.Relined f) (lowerExpr r e) (lowerExpr r (e.mapLines f)) := by
  match e with
  | .literal line value =>
    rw [Expr.mapLines, lowerExpr, lowerExpr]
    exact .pure .literal
  | .name line name =>
    rw [Expr.mapLines, lowerExpr, lowerExpr]
    exact parallel_inScope fun scope => moves_resolveName name
  | .this line =>
    rw [Expr.mapLines, lowerExpr, lowerExpr]
    exact parallel_inScope fun scope => .ok .this
  | .group line inner =>
    rw [Expr.mapLines, lowerExpr, lowerExpr]
    exact lowerExpr_relined f r inner
  | .assign line name value =>
    rw [Expr.mapLines, lowerExpr, lowerExpr]
    refine (parallel_inScope fun scope => moves_resolveVariable name).bind ?_
    rintro expected _ rfl
    refine (lowerExpr_relined f r value).bind fun node node' relined => ?_
    exact .ofExcept (moves_assign expected relined)
  | .unary line op right =>
    rw [Expr.mapLines, lowerExpr, lowerExpr]
    refine (lowerExpr_relined f r right).bind fun node node' relined => ?_
    exact .ofExcept (moves_unary op relined)
  | .binary line op left right =>
    rw [Expr.mapLines, lowerExpr, lowerExpr]
    refine (lowerExpr_relined f r left).bind fun leftNode leftNode' first => ?_
    refine (lowerExpr_relined f r right).bind fun rightNode rightNode' second => ?_
    exact .ofExcept (moves_binary op first second)
  | .logical line op left right =>
    rw [Expr.mapLines, lowerExpr, lowerExpr]
    refine (lowerExpr_relined f r left).bind fun leftNode leftNode' first => ?_
    refine (lowerExpr_relined f r right).bind fun rightNode rightNode' second => ?_
    exact .ofExcept (moves_logical op first second)
  | .get line receiver name =>
    rw [Expr.mapLines, lowerExpr, lowerExpr]
    refine (lowerExpr_relined f r receiver).bind fun node node' relined => ?_
    rw [relined.type_eq]
    refine Attempt.Matches.bind (.ofExcept (moves_fieldType node.type name)) ?_
    rintro type _ rfl
    exact .pure (.get relined)
  | .set line receiver name value =>
    rw [Expr.mapLines, lowerExpr, lowerExpr]
    refine (lowerExpr_relined f r receiver).bind fun node node' first => ?_
    rw [first.type_eq]
    refine Attempt.Matches.bind (.ofExcept (moves_fieldType node.type name)) ?_
    rintro expected _ rfl
    refine (lowerExpr_relined f r value).bind fun _ _ second => ?_
    exact .ofExcept (moves_setField expected first second)
  | .call line callee arguments =>
    rw [Expr.mapLines]
    rcases callee_cases callee with
      ⟨getLine, receiver, name, rfl⟩ | ⟨calleeLine, name, rfl⟩ | ⟨other, unnamed⟩
    · rw [Expr.mapLines, lowerExpr, lowerExpr]
      refine (lowerExpr_relined f r receiver).bind fun node node' relined => ?_
      refine (lowerExprs_relined f r arguments).bind fun nodes nodes' given => ?_
      have all := List.Forall₂.cons relined given
      rw [relined.type_eq, Node.types_of_forall₂ all]
      refine (parallel_inScope fun scope => moves_resolveMethod _ name _).bind ?_
      intro callee callee' called
      exact .ofExcept (moves_call called all)
    · rw [Expr.mapLines, lowerExpr, lowerExpr]
      refine (lowerExprs_relined f r arguments).bind fun nodes nodes' given => ?_
      rw [Node.types_of_forall₂ given]
      refine (parallel_inScope fun scope => moves_resolveCallee name _).bind ?_
      intro callee callee' called
      exact .ofExcept (moves_call called given)
    · rw [lowerExpr_callOther other unnamed,
        lowerExpr_callOther (mapLines_ne_get other) (mapLines_ne_name unnamed)]
      refine (lowerExprs_relined f r arguments).bind fun nodes nodes' given => ?_
      refine (lowerExpr_relined f r callee).bind fun node node' relined => ?_
      refine Attempt.Matches.bind (.ofExcept (moves_ofNode relined)) fun callee callee' called => ?_
      exact .ofExcept (moves_call called given)
  | .branch line condition whenTrue whenFalse =>
    rw [Expr.mapLines, lowerExpr, lowerExpr]
    refine (lowerExpr_relined f r condition).bind fun node node' test => ?_
    refine Attempt.Matches.bind (.ofExcept (moves_expectNode .boolean test)) fun _ _ _ => ?_
    refine (parallel_inFrame (lowerStmts_relined f r whenTrue)).bind fun _ _ first => ?_
    refine (parallel_inFrame (lowerStmts_relined f r whenFalse)).bind fun _ _ second => ?_
    exact .ofExcept (moves_branch test first second)
  | .function line receiver name signature body =>
    rw [Expr.mapLines, lowerExpr, lowerExpr]
    refine (parallel_inScope fun scope => moves_resolveReceiver receiver).bind ?_
    rintro receiver _ rfl
    refine (parallel_inScope fun scope => moves_resolveFunctionType receiver signature).bind ?_
    rintro type _ rfl
    refine (parallel_declareFunction name type).bind ?_
    rintro indexed _ rfl
    refine parallel_freshId.bind ?_
    rintro id _ rfl
    refine (parallel_body (lowerStmts_relined f _ body) type.parameters).bind ?_
    rintro nodes nodes' ⟨bodies, returns⟩
    refine Attempt.Matches.bind (.ofExcept (moves_completeBody bodies returns)) ?_
    intro completed completed' complete
    exact .pure (complete _ ⟨id, indexed, name, type, line⟩ rfl)
  | .anonymous line signature body =>
    rw [Expr.mapLines, lowerExpr, lowerExpr]
    refine (parallel_inScope fun scope => moves_resolveFunctionType none signature).bind ?_
    rintro type _ rfl
    refine parallel_freshId.bind ?_
    rintro id _ rfl
    refine (parallel_body (lowerStmts_relined f _ body) type.parameters).bind ?_
    rintro nodes nodes' ⟨bodies, returns⟩
    refine Attempt.Matches.bind (.ofExcept (moves_requireReturn type.result returns)) ?_
    intro _ _ _
    exact .pure (.anonymous bodies)
  | .native line name signature =>
    rw [Expr.mapLines, lowerExpr, lowerExpr]
    exact parallel_lowerNative name signature

theorem lowerExprs_relined (f : Line → Line) (r : Option Ty) (es : List Expr) :
    Parallel f (List.Forall₂ (Node.Relined f)) (lowerExprs r es)
      (lowerExprs r (Expr.mapLinesAll f es)) := by
  match es with
  | [] =>
    rw [Expr.mapLinesAll, lowerExprs]
    exact .pure .nil
  | e :: rest =>
    rw [Expr.mapLinesAll, lowerExprs, lowerExprs]
    refine (lowerExpr_relined f r e).bind fun node node' head => ?_
    refine (lowerExprs_relined f r rest).bind fun nodes nodes' tail => ?_
    exact .pure (.cons head tail)

theorem lowerStmt_relined (f : Line → Line) (r : Option Ty) (stmt : Stmt) :
    Parallel f (Node.Relined f) (lowerStmt r stmt) (lowerStmt r (stmt.mapLines f)) := by
  match stmt with
  | .expr value =>
    rw [Stmt.mapLines, lowerStmt, lowerStmt]
    exact lowerExpr_relined f r value
  | .block line body =>
    rw [Stmt.mapLines, lowerStmt, lowerStmt]
    refine (parallel_inFrame (lowerStmts_relined f r body)).bind fun _ _ bodies => ?_
    exact .pure (.block bodies)
  | .loop line condition body =>
    rw [Stmt.mapLines, lowerStmt, lowerStmt]
    refine (lowerExpr_relined f r condition).bind fun node node' test => ?_
    refine Attempt.Matches.bind (.ofExcept (moves_expectNode .boolean test)) fun _ _ _ => ?_
    refine (parallel_inFrame (lowerStmts_relined f r body)).bind fun _ _ bodies => ?_
    exact .pure (.loop test bodies)
  | .returns line value =>
    rw [Stmt.mapLines, lowerStmt, lowerStmt]
    refine (lowerExpr_relined f r value).bind fun node node' relined => ?_
    exact .ofExcept (moves_returns r relined)
  | .bind line mutability name typeName value =>
    rw [Stmt.mapLines, lowerStmt, lowerStmt]
    refine (lowerExpr_relined f r value).bind fun node node' relined => ?_
    exact parallel_lowerBinding mutability name typeName relined
  | .useModule line name =>
    rw [Stmt.mapLines, lowerStmt, lowerStmt]
    exact .pure .useModule
  | .openModule line name =>
    rw [Stmt.mapLines, lowerStmt, lowerStmt]
    exact .pure .openModule
  | .record line name fields =>
    rw [Stmt.mapLines, lowerStmt, lowerStmt]
    exact parallel_lowerRecord name fields

/-- Lowering statements on other lines. -/
theorem lowerStmts_relined (f : Line → Line) (r : Option Ty) (stmts : List Stmt) :
    Parallel f (List.Forall₂ (Node.Relined f)) (lowerStmts r stmts)
      (lowerStmts r (Stmt.mapLinesAll f stmts)) := by
  match stmts with
  | [] =>
    rw [Stmt.mapLinesAll, lowerStmts]
    exact .pure .nil
  | stmt :: rest =>
    rw [Stmt.mapLinesAll, lowerStmts, lowerStmts]
    refine (lowerStmt_relined f r stmt).bind fun node node' head => ?_
    refine (lowerStmts_relined f r rest).bind fun nodes nodes' tail => ?_
    exact .pure (.cons head tail)

end

section Additions

variable {r : Option Ty} {s s' : State} {line : Line} {receiver name : String}
  {signature : Signature} {body : List Stmt} {node : Node}

/-- An extension function whose source has no return gets the synthetic one. -/
theorem Lowers.adds_return
    (derived : Lowers r s (.expr (.function line (some receiver) name signature body)) [node] s')
    (none : Stmt.anyHasReturn false body = false) :
    ∃ tag header nodes, node = .function tag header (nodes ++ [syntheticReturn]) := by
  generalize same : [node] = lowered at derived
  cases derived with
  | @function _ _ _ _ _ _ _ _ found type nodes completed received resolved inside complete =>
    obtain ⟨own, rfl⟩ : ∃ own, found = some own := by
      obtain ⟨missing, -⟩ | ⟨_, own, -, -, rfl⟩ := Scope.resolveReceiver_eq_ok.mp received
      · cases missing
      · exact ⟨own, rfl⟩
    obtain ⟨parameters, result, -, -, rfl⟩ := Scope.resolveFunctionType_eq_ok.mp resolved
    have lacks : Node.anyContainsReturn nodes = false := by
      rw [← Node.anySearchReturn_false, inside.searchReturn_eq]
      exact none
    obtain ⟨-, added⟩ := completeBody_eq_ok.mp complete
    rw [lacks] at added
    cases List.singleton_inj.mp same
    exact ⟨_, _, nodes, by rw [← added]; rfl⟩

/-- The return that an extension function gets is on no line, whatever lines its source is on. -/
theorem added_return_stays (f : Line → Line)
    (lowered : lowerExpr r (.function line (some receiver) name signature body) s = (.ok node, s'))
    (none : Stmt.anyHasReturn false body = false) :
    ∃ tag header nodes nodes', List.Forall₂ (Node.Relined f) nodes nodes' ∧
      node = .function tag header (nodes ++ [syntheticReturn]) ∧
      lowerExpr r (.function (f line) (some receiver) name signature (Stmt.mapLinesAll f body)) s =
        (.ok (.function (tag.mapLine f) (header.mapLine f) (nodes' ++ [syntheticReturn])), s') := by
  have parallel := lowerExpr_relined f r (.function line (some receiver) name signature body)
  rw [Expr.mapLines] at parallel
  rcases parallel.run (rfl : s = s) with
    ⟨_, node', _, _, ran, ran', relined, rfl⟩ | ⟨_, _, _, _, ran, -, -, -⟩
  · cases lowered.symm.trans ran
    have none' : Stmt.anyHasReturn false (Stmt.mapLinesAll f body) = false :=
      (Stmt.anyHasReturn_mapLinesAll false f body).trans none
    obtain ⟨tag, header, nodes, rfl⟩ := (lowers_of_lowerExpr lowered).adds_return none
    obtain ⟨tag', header', nodes', rfl⟩ := (lowers_of_lowerExpr ran').adds_return none'
    generalize ends : nodes ++ [syntheticReturn] = completed at relined
    generalize ends' : nodes' ++ [syntheticReturn] = completed' at relined
    cases relined with
    | function bodies =>
      subst ends ends'
      have length : nodes.length = nodes'.length := by simpa using bodies.length_eq
      have inside := List.forall₂_take_append _ _ _ bodies
      rw [List.take_left' length] at inside
      exact ⟨tag, header, nodes, nodes', inside, rfl, ran'⟩
    | extension _ _ bodies =>
      obtain ⟨rfl, -⟩ := List.append_inj' ends rfl
      obtain ⟨rfl, -⟩ := List.append_inj' ends' rfl
      exact ⟨tag, header, nodes, nodes', bodies, rfl, ran'⟩
  · rw [lowered] at ran
    cases ran

end Additions

end Lowering

end ScriptCore
