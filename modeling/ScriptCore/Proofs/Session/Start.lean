import ScriptCore.Proofs.Eval.Triple
import ScriptCore.Proofs.Store.Frames
import ScriptCore.Session

/-!
# Fresh sessions

The bootstrap of a fresh machine cannot fail: it declares functions, which never clash, and the
one variable `Unit` in a scope that has none yet. So every output has a fresh session.
-/
namespace ScriptCore

open Eval

namespace Builtin

variable {held : Store → Prop} {stops : Stops} {global : Location}

/-- What holds still after a constructor of a class has been put under any of its names. -/
def Keeps (held : Store → Prop) (global : Location) (made : ClassTy) (type : FnTy) : Prop :=
  ∀ stamp index heap, held heap → held (heap.declareFunction global
    (overloadName made.render index)
    (.constructor ⟨stamp, overloadName made.render index, type, made⟩))

theorem keeps_declareConstructors {made : ClassTy} {types : List FnTy}
    (keeps : ∀ type ∈ types, Keeps held global made type) (index : Nat) :
    Triple held (declareConstructors global made index types) (fun _ => held) stops := by
  induction types generalizing index with
  | nil => exact Triple.pure fun _ h => h
  | cons type rest ih =>
    obtain ⟨first, others⟩ := List.forall_mem_cons.mp keeps
    refine Triple.bind (Triple.freshStamp fun _ _ h => h) fun stamp => ?_
    have declares : Triple held (Eval.declareFunction global (overloadName made.render index)
        (.constructor ⟨stamp, overloadName made.render index, type, made⟩)) (fun _ => held) stops :=
      Triple.declareFunction (first stamp index)
    exact declares.bind fun _ => (ih others (index + 1)).bind fun _ => Triple.pure fun _ h => h

theorem keeps_materializeAll {types : List ClassTy}
    (keeps : ∀ made ∈ types, ∀ type ∈ constructorTypes made, Keeps held global made type) :
    Triple held (materializeAll global types) (fun _ => held) stops := by
  induction types with
  | nil => exact Triple.pure fun _ h => h
  | cons made rest ih =>
    obtain ⟨first, others⟩ := List.forall_mem_cons.mp keeps
    have object : Triple held (materialize global made) (fun _ => held) stops := by
      refine Triple.bind (Triple.freshStamp fun _ _ h => h) fun stamp => ?_
      exact (keeps_declareConstructors first 0).bind fun _ => Triple.pure fun _ h => h
    exact object.bind fun _ => (ih others).bind fun _ => Triple.pure fun _ h => h

/-- A class with one constructor puts it under the first indexed name of the class. -/
theorem keeps_materializeAll_single {types : List ClassTy}
    (keeps : ∀ made ∈ types, ∃ type, constructorTypes made = [type] ∧
      ∀ stamp heap, held heap → held (heap.declareFunction global (overloadName made.render 0)
        (.constructor ⟨stamp, overloadName made.render 0, type, made⟩))) :
    Triple held (materializeAll global types) (fun _ => held) stops := by
  induction types with
  | nil => exact Triple.pure fun _ h => h
  | cons made rest ih =>
    obtain ⟨⟨type, single, declares⟩, others⟩ := List.forall_mem_cons.mp keeps
    have object : Triple held (materialize global made) (fun _ => held) stops := by
      rw [materialize, single]
      refine Triple.bind (Triple.freshStamp fun _ _ h => h) fun _ => ?_
      refine Triple.bind ?_ fun _ => Triple.pure fun _ h => h
      refine Triple.bind (Triple.freshStamp fun _ _ h => h) fun stamp => ?_
      have declared : Triple held (Eval.declareFunction global (overloadName made.render 0)
          (.constructor ⟨stamp, overloadName made.render 0, type, made⟩)) (fun _ => held) stops :=
        Triple.declareFunction (declares stamp)
      exact declared.bind fun _ => Triple.bind (Triple.pure fun _ h => h) fun _ =>
        Triple.pure fun _ h => h
    exact object.bind fun _ => (ih others).bind fun _ => Triple.pure fun _ h => h

/-- A constructor does not bind `Unit`. -/
theorem keeps_free {made : ClassTy} {type : FnTy} :
    Keeps (fun heap => heap.contains global "Unit" = false) global made type :=
  fun _ _ _ free => Store.contains_declareFunction.trans free

/-- A heap whose one frame is a global one with constructors and these variables. -/
structure Prepared (global : Location) (bindings : Table Binding) (heap : Store) : Prop where
  only : ∀ location frame, heap.frame? location = some frame → location = global
  frame : ∃ frame, heap.frame? global = some frame ∧ frame.enclosing = none ∧
    frame.expanded = [] ∧ frame.bindings = bindings ∧
    ∀ name callable, frame.function? name = some callable → ∃ header, callable = .constructor header

theorem Prepared.update {bindings bindings' : Table Binding} {heap : Store}
    (prepared : Prepared global bindings heap) {change : Store.Frame → Store.Frame}
    (links : ∀ frame, (change frame).enclosing = frame.enclosing ∧
      (change frame).expanded = frame.expanded)
    (binds : ∀ frame : Store.Frame, frame.bindings = bindings →
      (change frame).bindings = bindings')
    (functions : ∀ frame name callable, (change frame).function? name = some callable →
      (∃ header, callable = .constructor header) ∨ frame.function? name = some callable) :
    Prepared global bindings' (heap.update global change) where
  only := by
    intro location frame there
    obtain ⟨old, was, -⟩ := Store.of_frame?_update there
    exact prepared.only location old was
  frame := by
    obtain ⟨frame, there, enclosing, expanded, bound, constructors⟩ := prepared.frame
    obtain ⟨sameLink, sameModules⟩ := links frame
    refine ⟨change frame, Store.frame?_update_self there, sameLink.trans enclosing,
      sameModules.trans expanded, binds frame bound, fun name callable found => ?_⟩
    rcases functions frame name callable found with new | old
    · exact new
    · exact constructors name callable old

theorem Prepared.value {heap : Store}
    (prepared : Prepared global (Table.empty.insert "Unit" ⟨.unit, .immutable⟩) heap)
    {frame : Store.Frame} (there : heap.frame? global = some frame) {name : String} {value : Value}
    (found : frame.value? name = some value) : name = "Unit" ∧ value = .unit := by
  obtain ⟨own, here, -, -, bound, -⟩ := prepared.frame
  obtain rfl : own = frame := Option.some.inj (here.symm.trans there)
  rw [Store.Frame.value?, bound, Table.get?_insert] at found
  by_cases same : "Unit" = name
  · rw [if_pos same] at found
    exact ⟨same.symm, (Option.some.inj found).symm⟩
  · rw [if_neg same] at found
    cases found

/-- A fresh machine has one frame, and `Unit` is all that is bound in it. -/
theorem created_prepared :
    Triple (fun heap => ∀ location, heap.frame? location = none) (Interpreter.create [])
      (fun interpreter heap =>
        Prepared interpreter.global (Table.empty.insert "Unit" ⟨.unit, .immutable⟩) heap) .any := by
  have opened : Triple (fun heap => ∀ location, heap.frame? location = none) Eval.newGlobal
      (fun global heap => Prepared global .empty heap) .any := by
    refine Triple.newGlobal fun heap empty => ⟨fun location frame there => ?_, ?_⟩
    · rw [Store.frame?_add] at there
      split at there
      · assumption
      · rw [empty location] at there
        cases there
    · exact ⟨_, Store.frame?_add_next, rfl, rfl, rfl, nofun⟩
  refine opened.bind fun global => ?_
  have constructors : Triple (fun heap => Prepared global .empty heap)
      (materializeAll global classes) (fun _ heap => Prepared global .empty heap) .any := by
    refine keeps_materializeAll fun made _ type _ stamp index heap prepared => ?_
    refine prepared.update (fun _ => ⟨rfl, rfl⟩) (fun _ same => same)
      fun frame name callable found => ?_
    rcases Store.Frame.of_function?_insert found with ⟨-, rfl⟩ | before
    · exact .inl ⟨_, rfl⟩
    · exact .inr before
  have unit : Triple (fun heap => Prepared global .empty heap)
      (Eval.declare global "Unit" .unit .immutable)
      (fun _ heap => Prepared global (Table.empty.insert "Unit" ⟨.unit, .immutable⟩) heap)
      .any := by
    refine Triple.declare (fun heap prepared _ => ?_) fun _ _ _ => trivial
    refine prepared.update (fun _ => ⟨rfl, rfl⟩) (fun frame same => ?_)
      fun _ _ _ found => .inr found
    rw [same]
  rw [bootstrap, bind_assoc]
  refine constructors.bind fun objects => ?_
  rw [bind_assoc]
  exact unit.bind fun _ => Triple.pure fun _ held => held

/-- No stop at all. -/
def never : Stops := ⟨fun _ _ => False, fun _ _ => False, fun _ => False⟩

end Builtin

namespace Session

theorem exists_start (output : Output) : ∃ session, start output = .ok session := by
  have opened : Triple (fun _ => True) Eval.newGlobal
      (fun global heap => heap.contains global "Unit" = false) Builtin.never :=
    Triple.newGlobal fun heap _ => by rw [Store.contains, Store.frame_add_next]; rfl
  have prepared (global : Location) : Triple (fun heap => heap.contains global "Unit" = false)
      (Builtin.bootstrap global) (fun _ _ => True) Builtin.never := by
    refine Triple.bind (Builtin.keeps_materializeAll fun made _ type _ => Builtin.keeps_free)
      fun objects => ?_
    have declares : Triple (fun heap => heap.contains global "Unit" = false)
        (Eval.declare global "Unit" .unit .immutable) (fun _ _ => True) Builtin.never :=
      Triple.declare (fun _ _ _ => trivial) fun heap free taken => by simp [free] at taken
    exact declares.bind fun _ => Triple.pure fun _ _ => trivial
  have created : Triple (fun _ => True) (Interpreter.create []) (fun _ _ => True) Builtin.never :=
    opened.bind fun global => (prepared global).bind fun _ => Triple.pure fun _ _ => trivial
  rw [start]
  split
  · exact ⟨_, rfl⟩
  · rename_i stop machine failed
    have stopped := created.of_error trivial (congrArg Prod.fst failed)
    cases stop <;> exact stopped.elim

/-- What is computed of a fresh session is so of one. -/
theorem exists_start_of_computed {α : Type} {output : Output} {view : Session → α} {shown : α}
    (computed : (start output).toOption.map view = some shown) :
    ∃ session, start output = .ok session ∧ view session = shown := by
  obtain ⟨session, started⟩ := exists_start output
  rw [started] at computed
  exact ⟨session, started, Option.some.inj computed⟩

/-- Whatever a triple says of the bootstrap holds of a fresh session. -/
theorem start_ends {before : Store → Prop} {after : Interpreter → Store → Prop} {stops : Stops}
    (created : Triple before (Interpreter.create []) after stops) {output : Output}
    (held : before (Machine.fresh output).heap) {session : Session}
    (started : start output = .ok session) : after session.interpreter session.machine.heap := by
  rw [start] at started
  split at started
  · rename_i interpreter machine made
    cases started
    have ends := created.of_ok held (congrArg Prod.fst made)
    rwa [made] at ends
  · cases started

theorem prepared_start {output : Output} {session : Session}
    (started : start output = .ok session) :
    Builtin.Prepared session.interpreter.global (Table.empty.insert "Unit" ⟨.unit, .immutable⟩)
      session.machine.heap :=
  start_ends Builtin.created_prepared (fun _ => rfl) started

/-- A fresh session has the standard functions of a host and no others. -/
theorem hosts_start {output : Output} {session : Session}
    (started : start output = .ok session) : session.interpreter.natives = Native.standard := by
  have created : Triple (fun _ => True) (Interpreter.create [])
      (fun interpreter _ => interpreter.natives = Native.standard)
      ⟨fun _ _ => True, fun _ _ => True, fun _ => True⟩ := by
    refine Triple.of_runs (fun m interpreter m' _ made => ?_) fun m stop m' _ _ => ?_
    · simp only [Interpreter.create, Attempt.bind_eq_ok, Attempt.pure_eq_ok] at made
      obtain ⟨global, _, -, classes, _, -, rfl, -⟩ := made
      rfl
    · cases stop <;> trivial
  exact start_ends created trivial started

theorem lowering_start {output : Output} {session : Session}
    (started : start output = .ok session) : session.lowering = freshLowering := by
  rw [start] at started
  split at started
  · cases started
    rfl
  · cases started

end Session

end ScriptCore
