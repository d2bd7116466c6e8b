import ScriptCore.Proofs.Eval.Resolution
import ScriptCore.Proofs.Lowering.Resolution
import ScriptCore.Proofs.Session.History
import ScriptCore.Proofs.Session.Start
import ScriptCore.Proofs.Session.TypeSafety

/-!
# Names of sessions

As long as its units are of first order and succeed, a session keeps a context of names in sight
that describes its scope and that its global scope sees. The next unit then finds all names that
its nodes look up, although a function runs in the scope of its caller.
-/
namespace ScriptCore

open Eval

/-- What is in sight in a fresh session. The stamp is that of the constructor. -/
def Context.initial (stamp : Nat) : Context :=
  [.var "Unit", .fn (overloadName "String" 0)
    (.constructor ⟨stamp, overloadName "String" 0, stringConstructor, .string⟩)]

namespace Builtin

variable {global : Location} {context : Context}

/-- Constructors of other names take nothing out of sight. -/
theorem keeps_sees {made : ClassTy}
    (fresh : ∀ index, context.Fresh (overloadName made.render index)) (type : FnTy) :
    Keeps (·.Sees global context) global made type := by
  intro stamp index heap sees
  exact (sees.declareFunction (fresh index)).mono (List.subset_cons_self _ _)

/-- The class of strings brings its constructor. -/
theorem looks_materialize_string :
    Looks (·.Sees global []) (materialize global .string)
      (fun _ heap => ∃ stamp, heap.Sees global (Context.initial stamp).tail) := by
  refine Triple.bind (Triple.freshStamp fun _ _ sees => sees) fun _ => ?_
  refine Triple.bind ?_ fun _ => Triple.pure fun _ sees => sees
  refine Triple.bind (Triple.freshStamp fun _ _ sees => sees) fun stamp => ?_
  refine Triple.bind (looks_declareFunction nofun) fun _ => ?_
  exact Triple.bind (Triple.pure fun _ sees => sees) fun _ =>
    Triple.pure fun _ sees => ⟨stamp, sees⟩

theorem looks_bootstrap :
    Looks (·.Sees global []) (bootstrap global)
      (fun _ heap => ∃ stamp, heap.Sees global (Context.initial stamp)) := by
  have others (stamp : Nat) : Looks (·.Sees global (Context.initial stamp).tail)
      (materializeAll global [.int, .double, .boolean, .unit])
      (fun _ => (·.Sees global (Context.initial stamp).tail)) := by
    refine keeps_materializeAll fun made known type _ => keeps_sees (fun index callable mem => ?_) type
    simp only [Context.initial, List.tail_cons, List.mem_singleton, Item.fn.injEq] at mem
    obtain ⟨render, -⟩ := overloadName_inj mem.1
    simp only [List.mem_cons, List.not_mem_nil, or_false] at known
    rcases known with rfl | rfl | rfl | rfl <;> exact absurd render (by decide)
  have objects : Looks (·.Sees global []) (materializeAll global classes)
      (fun _ heap => ∃ stamp, heap.Sees global (Context.initial stamp).tail) := by
    refine Triple.bind looks_materialize_string fun _ => Triple.of_exists fun stamp => ?_
    exact Triple.bind (others stamp) fun _ => Triple.pure fun _ sees => ⟨stamp, sees⟩
  refine Triple.bind objects fun _ => Triple.of_exists fun stamp => ?_
  exact Triple.bind (looks_declare _ _) fun _ => Triple.pure fun _ sees => ⟨stamp, sees⟩

end Builtin

namespace Context

theorem closed_initial (stamp : Nat) : (initial stamp).Closed := .var (.constructor .nil)

theorem describes_initial (stamp : Nat) : (initial stamp).Describes Scope.builtins where
  types := fun _ mem _ _ found => Scope.builtin_of_frames mem found
  admitted := by
    have unit : Ty.unit.IsBuiltin := ⟨.unit, by decide, rfl⟩
    have string : Ty.string.IsBuiltin := ⟨.string, by decide, rfl⟩
    refine Scope.admitted_builtins_of (fun _ known => known) ⟨List.mem_cons_self, unit⟩ ?_
    exact ⟨string, _, List.mem_cons_of_mem _ List.mem_cons_self, rfl⟩
  indexed := by
    intro name callable mem
    simp only [initial, List.mem_cons, Item.fn.injEq, List.not_mem_nil, or_false, reduceCtorEq,
      false_or] at mem
    exact ⟨"String", 0, mem.1, by decide⟩

end Context

namespace Session

/-- What units of first order that succeed keep. -/
structure Sighted (context : Context) (session : Session) : Prop where
  closed : context.Closed
  describes : context.Describes session.scope
  sees : session.machine.heap.Sees session.interpreter.global context
  hosts : session.interpreter.natives = Native.standard

theorem exists_sighted_start {output : Output} {session : Session}
    (started : start output = .ok session) : ∃ context, session.Sighted context := by
  have opened : Looks (fun _ => True) Eval.newGlobal (fun global => (·.Sees global [])) :=
    Triple.newGlobal fun heap _ => ⟨Store.lt_next_of_frame? Store.frame?_add_next, nofun⟩
  have created : Looks (fun _ => True) (Interpreter.create []) (fun interpreter heap =>
      interpreter.natives = Native.standard ∧
        ∃ stamp, heap.Sees interpreter.global (Context.initial stamp)) := by
    rw [Interpreter.create]
    refine Triple.bind opened fun global => Triple.bind Builtin.looks_bootstrap fun classes => ?_
    exact Triple.pure fun _ sees => ⟨rfl, sees⟩
  obtain ⟨hosts, stamp, sees⟩ := start_ends created trivial started
  refine ⟨_, Context.closed_initial stamp, ?_, sees, hosts⟩
  rw [scope, lowering_start started]
  exact Context.describes_initial stamp

/-- Whether all units of a history succeed. -/
def Succeeds (session : Session) : History → Prop
  | [] => True
  | (fuel, unit) :: rest =>
    (∃ values, (run fuel unit session).1 = .ok values) ∧ (run fuel unit session).2.Succeeds rest

instance decidableSucceeds (session : Session) : ∀ history, Decidable (session.Succeeds history)
  | [] => .isTrue trivial
  | (fuel, unit) :: rest =>
    have := decidableSucceeds (run fuel unit session).2 rest
    decidable_of_iff ((run fuel unit session).1.isOk = true ∧
      (run fuel unit session).2.Succeeds rest) (and_congr_left' isOk_iff)

theorem Sighted.run {context : Context} {session : Session} (sighted : session.Sighted context)
    (fuel : Nat) {unit : List Stmt} (firstOrder : Node.FirstOrder false (session.nodesOf unit)) :
    (∀ values, (Session.run fuel unit session).1 = .ok values →
      ∃ later, (Session.run fuel unit session).2.Sighted later) ∧
    ∀ e, (Session.run fuel unit session).1 = .error (.runtime e) → ¬ e.fault.IsUndefined := by
  rcases session.run_cases fuel unit with ⟨error, failed, ran⟩ | ⟨nodes, lowering, lowers, ok, ran⟩
  · rw [ran]
    exact ⟨nofun, nofun⟩
  · rw [nodesOf_eq_of_ok ok] at firstOrder
    have outside : false = true → .var "this" ∈ context := nofun
    obtain ⟨resolved, describes, -⟩ := (Lowering.lowers_of_lowerStmts lowers).resolved
      sighted.describes outside rfl firstOrder
    have looks := Interpreter.looks_evaluateUnit sighted.hosts sighted.closed fuel resolved
    obtain ⟨machine, left, ended⟩ := evaluate_cases (·.evaluateUnit fuel nodes)
      { session with lowering := lowering } looks sighted.sees
    rw [ran, left]
    rcases ended with ⟨values, ended, sees⟩ | ⟨stop, ended, stopped⟩
    · rw [ended]
      exact ⟨fun _ _ => ⟨_, sighted.closed.extend resolved, describes, sees, sighted.hosts⟩, nofun⟩
    · rw [ended]
      refine ⟨nofun, ?_⟩
      cases stop with
      | returned value => rintro _ ⟨⟩; exact id
      | failed e => rintro _ ⟨⟩; exact stopped
      | exhausted => nofun

theorem Sighted.after {context : Context} {session : Session} (sighted : session.Sighted context)
    {history : History} (succeeded : session.Succeeds history)
    (firstOrder : Node.FirstOrder false (session.lowered history)) :
    ∃ later, (session.after history).Sighted later := by
  induction history generalizing session context with
  | nil => exact ⟨context, sighted⟩
  | cons submitted rest ih =>
    obtain ⟨fuel, unit⟩ := submitted
    obtain ⟨⟨values, ran⟩, others⟩ := succeeded
    obtain ⟨first, later⟩ := List.forall_mem_append.mp firstOrder
    obtain ⟨between, sighted⟩ := (sighted.run fuel first).1 values ran
    exact ih sighted others later

/-- After units of first order that succeed, a unit of first order never ends with a name that is
not found. -/
theorem run_finds_names {output : Output} {session : Session}
    (started : start output = .ok session) {earlier : History} {fuel : Nat} {unit : List Stmt}
    (succeeded : session.Succeeds earlier)
    (firstOrder : Node.FirstOrder false (session.lowered (earlier ++ [(fuel, unit)]))) :
    ∀ e, (Session.run fuel unit (session.after earlier)).1 = .error (.runtime e) →
      ¬ e.fault.IsUndefined := by
  obtain ⟨context, sighted⟩ := exists_sighted_start started
  rw [lowered_append] at firstOrder
  obtain ⟨before, last⟩ := List.forall_mem_append.mp firstOrder
  obtain ⟨later, sighted⟩ := sighted.after succeeded before
  have nodes : Node.FirstOrder false ((session.after earlier).nodesOf unit) :=
    fun node mem => last node (List.mem_append_left _ mem)
  exact (sighted.run fuel nodes).2

/-- A function and a variable, in two units. -/
def named : History :=
  [(9, Lowering.doubling),
   (9, [.bind ⟨4⟩ .immutable "one" none (.literal ⟨4⟩ (.scalar (.int 1)))])]

theorem computed_named :
    (start .silent).toOption.map (fun session =>
      (decide (session.Succeeds named),
        decide (Node.FirstOrder false (session.lowered (named ++ [(9, combining)]))),
        (run 9 combining (session.after named)).1.toOption.map (·.map Value.type))) =
      some (true, true, some [.double, .string]) := by
  decide +kernel

theorem computed_reassigning :
    (start .silent).toOption.map (fun session =>
      (decide (Node.FirstOrder false (session.lowered (named ++ [(9, reassigning)]))),
        errorOf? (run 9 reassigning (session.after named)).1)) =
      some (true, some (.runtime ⟨.alreadyDeclared "one", some ⟨4⟩, none⟩)) := by
  decide +kernel

/-- Behind these, a unit with both of their names has values, and a unit that fails does not fail
for a name. -/
theorem run_finds_names_doubling :
    ∃ session values e, start .silent = .ok session ∧ session.Succeeds named ∧
      Node.FirstOrder false (session.lowered (named ++ [(9, combining)])) ∧
      (run 9 combining (session.after named)).1 = .ok values ∧
      values.map Value.type = [.double, .string] ∧
      (∀ e, (run 9 combining (session.after named)).1 = .error (.runtime e) →
        ¬ e.fault.IsUndefined) ∧
      Node.FirstOrder false (session.lowered (named ++ [(9, reassigning)])) ∧
      (run 9 reassigning (session.after named)).1 = .error (.runtime e) ∧
      e.fault = .alreadyDeclared "one" ∧ ¬ e.fault.IsUndefined := by
  obtain ⟨session, started, computed⟩ := exists_start_of_computed computed_named
  have failing := computed_reassigning
  rw [started] at failing
  obtain ⟨firstOrder', failed⟩ := Prod.mk.inj (Option.some.inj failing)
  obtain ⟨succeeded, rest⟩ := Prod.mk.inj computed
  obtain ⟨firstOrder, ran⟩ := Prod.mk.inj rest
  obtain ⟨values, ended, types⟩ := Option.map_eq_some_iff.mp ran
  have succeeded := of_decide_eq_true succeeded
  have firstOrder := of_decide_eq_true firstOrder
  have firstOrder' := of_decide_eq_true firstOrder'
  have failed := eq_error_of_errorOf? failed
  have finds := run_finds_names started succeeded firstOrder
  have finds' := run_finds_names started succeeded firstOrder' _ failed
  exact ⟨session, values, _, started, succeeded, firstOrder, eq_ok_of_toOption ended, types, finds,
    firstOrder', failed, rfl, finds'⟩

/-- `println` is declared twice in an operand that is not evaluated, and called afterwards. -/
def skippedHost : List Stmt :=
  let host : Expr := .native ⟨1⟩ "println" ⟨[("x", "Any")], none⟩
  [.expr (.logical ⟨1⟩ .or (.literal ⟨1⟩ (.scalar (.boolean true))) (.binary ⟨1⟩ .eq host host)),
   .expr (.call ⟨2⟩ (.name ⟨2⟩ "println") [.literal ⟨2⟩ (.scalar (.int 1))])]

theorem computed_skippedHost :
    (start .silent).toOption.map (fun session =>
      (decide (Node.FirstOrder true (session.lowered ([] ++ [(9, skippedHost)]))),
        errorOf? (Session.run 9 skippedHost (session.after [])).1)) =
      some (true, some (.runtime
        ⟨.undefinedFunction (overloadName "println" 0), some ⟨2⟩, none⟩)) := by
  decide +kernel

/-- A function of the host that is declared where a value is needed may be in the scope and yet not
in sight. -/
theorem run_misses_skippedHost :
    ∃ session, start .silent = .ok session ∧ session.Succeeds [] ∧
      Node.FirstOrder true (session.lowered ([] ++ [(9, skippedHost)])) ∧
      ∃ e, (Session.run 9 skippedHost (session.after [])).1 = .error (.runtime e) ∧
        e.fault.IsUndefined := by
  obtain ⟨session, started, computed⟩ := exists_start_of_computed computed_skippedHost
  obtain ⟨firstOrder, failed⟩ := Prod.mk.inj computed
  exact ⟨session, started, trivial, of_decide_eq_true firstOrder, _, eq_error_of_errorOf? failed,
    trivial⟩

end Session

end ScriptCore
