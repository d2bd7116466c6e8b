import ScriptCore.Proofs.Store.Assignment

/-!
# A scope inside another one

Of a scope that is put inside another one nothing changes but what is seen through it. A variable
that is bound on the way outwards up to that scope is the same for every lookup and every
assignment, and work that starts in the scope and reaches no further leaves the older scopes as
they are.
-/
namespace ScriptCore.Store

/-- The store with the scope at `base` inside `outer`. -/
def rehang (store : Store) (base outer : Location) : Store :=
  store.update base fun frame => { frame with enclosing := some outer }

/-- The name is bound on the way outwards from `env`, at `base` at the latest. -/
inductive BoundWithin (store : Store) (base : Location) (name : String) : Location → Prop
  | here {env : Location} (inside : base ≤ env) (bound : store.contains env name = true) :
      BoundWithin store base name env
  | outward {env outer : Location} (inside : base < env)
      (around : (store.frame env).enclosing = some outer) (older : outer < env)
      (rest : BoundWithin store base name outer) : BoundWithin store base name env

/-- What work inside of `base` does to a store: older scopes stay as they are, the others keep their
places and the names that they have. -/
structure Continues (base : Location) (old new : Store) : Prop where
  older : ∀ location < base, new.frame? location = old.frame? location
  enclosing : ∀ location < old.next,
    (new.frame location).enclosing = (old.frame location).enclosing
  names : ∀ location name, old.contains location name = true → new.contains location name = true
  next : old.next ≤ new.next

variable {store old middle new : Store} {base outer env holder location : Location} {name : String}
  {binding : Binding}

namespace Continues

theorem refl : store.Continues base store := ⟨fun _ _ => rfl, fun _ _ => rfl, fun _ _ => id, le_rfl⟩

theorem trans (first : Continues base old middle) (second : Continues base middle new) :
    Continues base old new where
  older := fun location below => (second.older location below).trans (first.older location below)
  enclosing := by
    intro location inside
    have still := Nat.lt_of_lt_of_le inside first.next
    exact (second.enclosing location still).trans (first.enclosing location inside)
  names := fun location name had => second.names location name (first.names location name had)
  next := first.next.trans second.next

theorem add (inside : base ≤ store.next) (frame : Frame) :
    store.Continues base (store.add frame) where
  older := by
    intro location below
    rw [frame?_add, if_neg (Nat.ne_of_lt (Nat.lt_of_lt_of_le below inside))]
  enclosing := by
    intro location there
    rw [Store.frame, Store.frame, frame?_add, if_neg (Nat.ne_of_lt there)]
  names := by
    intro location name had
    have there := Nat.ne_of_lt (lt_next_of_contains had)
    rw [contains, Store.frame, frame?_add, if_neg there]
    exact had
  next := by simp [next_add]

theorem setVariable (inside : base ≤ holder) :
    store.Continues base (store.setVariable holder name binding) where
  older := by
    intro location below
    rw [Store.setVariable, frame?_update, if_neg (Nat.ne_of_gt (Nat.lt_of_lt_of_le below inside))]
  enclosing := fun location _ => view_frame_update Frame.enclosing fun _ => rfl
  names := by
    intro location other had
    by_cases same : holder = location
    · subst same
      rw [contains, frame_setVariable (lt_next_of_contains had), if_pos rfl]
      simp only [Table.contains, Table.get?_insert]
      split
      · rfl
      · exact had
    · rw [contains, Store.frame, Store.setVariable, frame?_update, if_neg same]
      exact had
  next := by rw [next_setVariable]

end Continues

theorem lt_next_of_enclosing (around : (store.frame env).enclosing = some outer) :
    env < store.next := by
  refine lt_next_of_frame_ne fun blank => ?_
  rw [blank] at around
  cases around

namespace BoundWithin

theorem continues (bound : old.BoundWithin base name env) (later : Continues base old new) :
    new.BoundWithin base name env := by
  induction bound with
  | here inside bound => exact .here inside (later.names _ _ bound)
  | outward inside around older _ ih =>
    have same := later.enclosing _ (lt_next_of_enclosing around)
    exact .outward inside (same.trans around) older ih

/-- The variable in question is that of a scope inside of `base`, whatever is around `base`. -/
theorem held (bound : store.BoundWithin base name env) (outer : Location) :
    ∃ holder binding, base ≤ holder ∧ store.holder? env name = some (holder, binding) ∧
      (store.rehang base outer).holder? env name = some (holder, binding) := by
  have bindings (location : Location) :
      ((store.rehang base outer).frame location).bindings = (store.frame location).bindings :=
    view_frame_update Frame.bindings fun _ => rfl
  have enclosing {location : Location} (other : base ≠ location) :
      ((store.rehang base outer).frame location).enclosing =
        (store.frame location).enclosing := by
    rw [rehang, Store.frame, frame?_update, if_neg other, Store.frame]
  have found : ∃ holder binding, base ≤ holder ∧ ∀ steps, env < steps →
      store.holderWithin name steps env = some (holder, binding) ∧
        (store.rehang base outer).holderWithin name steps env = some (holder, binding) := by
    induction bound with
    | @here env inside bound =>
      obtain ⟨binding, is⟩ := Option.isSome_iff_exists.mp bound
      refine ⟨env, binding, inside, fun steps enough => ?_⟩
      obtain ⟨steps, rfl⟩ := Nat.exists_eq_add_one_of_ne_zero (Nat.ne_zero_of_lt enough)
      simp only [holderWithin, bindings, is, and_self]
    | @outward env further inside around older _ ih =>
      obtain ⟨holder, binding, within, outside⟩ := ih
      cases own : (store.frame env).bindings.get? name with
      | some nearer =>
        refine ⟨env, nearer, inside.le, fun steps enough => ?_⟩
        obtain ⟨steps, rfl⟩ := Nat.exists_eq_add_one_of_ne_zero (Nat.ne_zero_of_lt enough)
        simp only [holderWithin, bindings, own, and_self]
      | none =>
        refine ⟨holder, binding, within, fun steps enough => ?_⟩
        obtain ⟨steps, rfl⟩ := Nat.exists_eq_add_one_of_ne_zero (Nat.ne_zero_of_lt enough)
        have left := Nat.lt_of_lt_of_le older (Nat.le_of_lt_succ enough)
        simp only [holderWithin, bindings, own, enclosing inside.ne, around]
        exact outside steps left
  obtain ⟨holder, binding, inside, walks⟩ := found
  exact ⟨holder, binding, inside, (walks _ (Nat.lt_succ_self env)).1,
    (walks _ (Nat.lt_succ_self env)).2⟩

end BoundWithin

/-- A lookup finds the variable that an assignment reaches. -/
theorem lookup_of_holder? (found : store.holder? env name = some (holder, binding)) :
    store.lookup env name = .ok binding.value := by
  have walk : ∀ steps env, store.holderWithin name steps env = some (holder, binding) →
      store.findWithin (Frame.value? name) steps env = some binding.value := by
    intro steps
    induction steps with
    | zero => nofun
    | succ steps ih =>
      intro env found
      rw [holderWithin] at found
      rw [findWithin]
      cases there : store.frame? env with
      | none =>
        rw [frame_of_none there] at found
        cases found
      | some frame =>
        rw [frame_of_frame? there] at found
        cases own : frame.bindings.get? name with
        | some nearer =>
          rw [own] at found
          cases found
          simp only [Frame.value?, own, Option.map_some]
        | none =>
          cases around : frame.enclosing with
          | none => simp [own, around] at found
          | some outer =>
            simp only [own, around] at found
            have free : Frame.value? name frame = none := by rw [Frame.value?, own, Option.map_none]
            have outside : frame.enclosing.bind (store.findWithin (Frame.value? name) steps) =
                some binding.value := by rw [around, Option.bind_some, ih outer found]
            simp only [free, outside]
  rw [lookup, find, walk _ _ found]

namespace BoundWithin

theorem lookup_rehang (bound : store.BoundWithin base name env) (outer : Location) :
    ∃ value, store.lookup env name = .ok value ∧
      (store.rehang base outer).lookup env name = .ok value := by
  obtain ⟨holder, binding, -, found, found'⟩ := bound.held outer
  exact ⟨binding.value, lookup_of_holder? found, lookup_of_holder? found'⟩

end BoundWithin

theorem update_comm {change change' : Frame → Frame}
    (comm : ∀ frame, change (change' frame) = change' (change frame)) :
    (store.update env change).update location change' =
      (store.update location change').update env change := by
  have frames : ∀ place, ((store.update env change).update location change').frame? place =
      ((store.update location change').update env change).frame? place := by
    intro place
    simp only [frame?_update]
    cases store.frame? place <;> split <;> split <;> simp [comm]
  exact congrArg (fun frames => { store with frames }) (Array.ext_getElem? frames)

theorem setVariable_rehang :
    (store.setVariable env name binding).rehang base outer =
      (store.rehang base outer).setVariable env name binding :=
  update_comm fun _ => rfl

theorem add_rehang (inside : base < store.next) (frame : Frame) :
    (store.add frame).rehang base outer = (store.rehang base outer).add frame := by
  have frames : ∀ place, ((store.add frame).rehang base outer).frame? place =
      ((store.rehang base outer).add frame).frame? place := by
    intro place
    rw [rehang, rehang, frame?_update, frame?_add, frame?_add, frame?_update, next_update]
    by_cases last : place = store.next
    · rw [if_pos last, if_pos last, if_neg (last ▸ Nat.ne_of_lt inside)]
    · rw [if_neg last, if_neg last]
  exact congrArg (fun frames => { store with frames }) (Array.ext_getElem? frames)

theorem next_rehang : (store.rehang base outer).next = store.next := next_update

theorem contains_rehang : (store.rehang base outer).contains env name = store.contains env name :=
  view_frame_update (fun frame => frame.bindings.contains name) fun _ => rfl

/-- A new scope inside `outer` is one inside any other scope that has been put inside `outer`. -/
theorem add_create_rehang {other : Location} {site : Option CallSite} :
    (store.add (.create (some other) site)).rehang store.next outer =
      store.add (.create (some outer) site) := by
  have frames : ∀ place, ((store.add (.create (some other) site)).rehang store.next outer).frame?
      place = (store.add (.create (some outer) site)).frame? place := by
    intro place
    rw [rehang, frame?_update, frame?_add, frame?_add]
    by_cases last : place = store.next
    · rw [if_pos last.symm, if_pos last, if_pos last]
      rfl
    · rw [if_neg (Ne.symm last), if_neg last, if_neg last]
  exact congrArg (fun frames => { store with frames }) (Array.ext_getElem? frames)

end ScriptCore.Store
