import Mathlib.Data.Finset.Card
import Mathlib.Logic.Relation
import ScriptCore.Ty.TypeTable

/-!
# Tables without self-reference

A table of types is grounded if every type refers to types of the table alone and none refers to
itself, not even through others. In a grounded table no chain of references is longer than the
table, so a recursion over types that is bounded by `TypeTable.depth` never comes to its bound
(`Grounded.walk_eq`). A grounded table stays so while types are added, and constructors that do not
lead back to their class.
-/
namespace ScriptCore

namespace TyLayer

variable {τ : Type}

/-- The types below a layer. -/
def below : TyLayer τ → List τ
  | cls _ fields constructors =>
    fields.map Prod.snd ++ constructors.flatMap fun parameters => parameters.map Prod.snd
  | fn parameters result receiver => parameters.map Prod.snd ++ result :: receiver.toList

end TyLayer

namespace TypeTable

variable {table : TypeTable} {place other : Place} {layer : TyLayer Place}

/-- The type at one place is made of the type at the other one, among others. -/
def Refers (table : TypeTable) (place other : Place) : Prop :=
  ∃ layer, table.layer? place = some layer ∧ other ∈ layer.below

/-- The type at one place leads to the type at the other one. -/
abbrev Reaches (table : TypeTable) : Place → Place → Prop := Relation.TransGen table.Refers

/-- All types are there, and none refers to itself. -/
structure Grounded (table : TypeTable) : Prop where
  closed : ∀ place other, table.Refers place other → other < table.layers.size
  acyclic : ∀ place, ¬ table.Reaches place place

theorem layer?_of_lt (inside : place < table.layers.size) :
    ∃ layer, table.layer? place = some layer :=
  ⟨_, Array.getElem?_eq_getElem inside⟩

section Height

open scoped Classical in
/-- The number of types that a type leads to. -/
noncomputable def height (table : TypeTable) (place : Place) : Nat :=
  ((Finset.range table.layers.size).filter (table.Reaches place)).card

theorem height_lt_depth (place : Place) : table.height place < table.depth := by
  classical
  have filtered := Finset.card_filter_le (Finset.range table.layers.size) (table.Reaches place)
  rw [Finset.card_range] at filtered
  exact Nat.lt_succ_of_le filtered

namespace Grounded

variable (grounded : table.Grounded)

include grounded

/-- A type leads to less than a type that refers to it. -/
theorem height_lt (refers : table.Refers place other) :
    table.height other < table.height place := by
  classical
  refine Finset.card_lt_card ((Finset.ssubset_iff_of_subset ?_).mpr ⟨other, ?_, ?_⟩)
  · intro below mem
    rw [Finset.mem_filter] at mem ⊢
    exact ⟨mem.1, .head refers mem.2⟩
  · rw [Finset.mem_filter, Finset.mem_range]
    exact ⟨grounded.closed place other refers, .single refers⟩
  · rw [Finset.mem_filter]
    exact fun mem => grounded.acyclic other mem.2

/-- What passes up along every reference holds of every type. -/
theorem induction_below {P : Place → Prop}
    (upwards : ∀ place, (∀ other, table.Refers place other → P other) → P place)
    (place : Place) : P place := by
  induction height : table.height place using Nat.strongRecOn generalizing place with
  | ind n ih =>
    subst height
    exact upwards place fun other refers => ih _ (grounded.height_lt refers) other rfl

/-- A recursion over types that is bounded by the depth of the table never comes to its bound. -/
theorem walk_eq {β : Type} (walk : Nat → Place → β) (visit : Place → (Place → β) → β)
    (walk_succ : ∀ depth place, walk (depth + 1) place = visit place (walk depth))
    (visit_congr : ∀ place f g, (∀ other, table.Refers place other → f other = g other) →
      visit place f = visit place g)
    (place : Place) : walk table.depth place = visit place (walk table.depth) := by
  have settled : ∀ place depth depth', table.height place < depth → table.height place < depth' →
      walk depth place = walk depth' place := by
    refine grounded.induction_below fun place ih depth depth' enough enough' => ?_
    obtain ⟨depth, rfl⟩ := Nat.exists_eq_add_one_of_ne_zero (Nat.ne_zero_of_lt enough)
    obtain ⟨depth', rfl⟩ := Nat.exists_eq_add_one_of_ne_zero (Nat.ne_zero_of_lt enough')
    rw [walk_succ, walk_succ]
    refine visit_congr place _ _ fun other refers => ?_
    have lower := grounded.height_lt refers
    exact ih other refers depth depth' (by omega) (by omega)
  rw [← walk_succ]
  have bounded : table.height place < table.depth := height_lt_depth place
  exact settled place _ _ bounded (by omega)

end Grounded

end Height

section Building

/-- A table is grounded if a rank falls along the references of every type in it. -/
theorem grounded_of_rank (rank : Place → Nat)
    (falls : ∀ place < table.layers.size, ∀ layer ∈ table.layer? place, ∀ other ∈ layer.below,
      other < table.layers.size ∧ rank other < rank place) : table.Grounded := by
  have lower : ∀ place other, table.Refers place other →
      other < table.layers.size ∧ rank other < rank place := by
    rintro place other ⟨layer, there, mem⟩
    exact falls place (Array.getElem?_eq_some_iff.mp there).1 layer there other mem
  refine ⟨fun place other refers => (lower place other refers).1, fun place cycle => ?_⟩
  have below : ∀ other, table.Reaches place other → rank other < rank place := by
    intro other reaches
    induction reaches with
    | single refers => exact (lower _ _ refers).2
    | tail _ refers ih => exact (lower _ _ refers).2.trans ih
  exact Nat.lt_irrefl _ (below place cycle)

theorem grounded_builtins : builtins.Grounded := grounded_of_rank id (by decide)

/-- A new type refers to types that are there. -/
theorem Grounded.add (grounded : table.Grounded)
    (known : ∀ other ∈ layer.below, other < table.layers.size) :
    (table.add layer).2.Grounded := by
  have size : (table.add layer).2.layers.size = table.layers.size + 1 := Array.size_push _
  have refers : ∀ {place other}, (table.add layer).2.Refers place other →
      other < table.layers.size ∧ (place < table.layers.size → table.Refers place other) := by
    rintro place other ⟨layer', there, mem⟩
    rw [TypeTable.add, layer?, Array.getElem?_push] at there
    split at there
    · rename_i new
      obtain rfl := Option.some.inj there
      exact ⟨known other mem, fun inside => absurd new (Nat.ne_of_lt inside)⟩
    · have old : table.Refers place other := ⟨layer', there, mem⟩
      exact ⟨grounded.closed place other old, fun _ => old⟩
  have reaches : ∀ {place other}, (table.add layer).2.Reaches place other →
      other < table.layers.size ∧ (place < table.layers.size → table.Reaches place other) := by
    intro place other path
    induction path with
    | single edge => exact ⟨(refers edge).1, fun inside => .single ((refers edge).2 inside)⟩
    | tail _ edge ih =>
      exact ⟨(refers edge).1, fun inside => (ih.2 inside).tail ((refers edge).2 ih.1)⟩
  refine ⟨fun place other edge => size ▸ Nat.lt_succ_of_lt (refers edge).1, fun place cycle => ?_⟩
  obtain ⟨inside, old⟩ := reaches cycle
  exact grounded.acyclic place (old inside)

/-- A constructor may be added to a class as long as its parameters do not lead to the class. -/
theorem Grounded.addConstructor (grounded : table.Grounded)
    {parameters : List (String × Place)}
    (known : ∀ parameter ∈ parameters, parameter.2 < table.layers.size)
    (apart : ∀ parameter ∈ parameters, ¬ Relation.ReflTransGen table.Refers parameter.2 place) :
    (table.addConstructor place parameters).Grounded := by
  have refers : ∀ {one other}, (table.addConstructor place parameters).Refers one other →
      table.Refers one other ∨ one = place ∧ ∃ parameter ∈ parameters, parameter.2 = other := by
    rintro one other ⟨layer, there, mem⟩
    by_cases same : place = one
    · subst same
      rw [TypeTable.addConstructor, layer?, Array.getElem?_modify, if_pos rfl] at there
      obtain ⟨before, was, rfl⟩ := Option.map_eq_some_iff.mp there
      cases before with
      | cls name fields constructors =>
        simp only [TyLayer.below, List.flatMap_append, List.mem_append, List.flatMap_cons,
          List.flatMap_nil, List.append_nil] at mem
        rcases mem with field | constructor | new
        · exact .inl ⟨_, was, List.mem_append_left _ field⟩
        · exact .inl ⟨_, was, List.mem_append_right _ constructor⟩
        · exact .inr ⟨rfl, List.mem_map.mp new⟩
      | fn parameters result receiver => exact .inl ⟨_, was, mem⟩
    · rw [layer?_addConstructor_of_ne table parameters same] at there
      exact .inl ⟨layer, there, mem⟩
  -- a path through the new constructor comes to the class and goes on from a parameter
  have reaches : ∀ {one other}, (table.addConstructor place parameters).Reaches one other →
      table.Reaches one other ∨ Relation.ReflTransGen table.Refers one place ∧
        ∃ parameter ∈ parameters, Relation.ReflTransGen table.Refers parameter.2 other := by
    intro one other path
    induction path with
    | single edge =>
      rcases refers edge with old | ⟨rfl, parameter, mem, rfl⟩
      · exact .inl (.single old)
      · exact .inr ⟨.refl, parameter, mem, .refl⟩
    | tail _ edge ih =>
      rcases refers edge with old | ⟨rfl, parameter, mem, rfl⟩
      · rcases ih with before | ⟨comes, parameter, mem, goes⟩
        · exact .inl (before.tail old)
        · exact .inr ⟨comes, parameter, mem, goes.tail old⟩
      · rcases ih with before | ⟨-, between, mem', goes⟩
        · exact .inr ⟨before.to_reflTransGen, parameter, mem, .refl⟩
        · exact absurd goes (apart between mem')
  have size : (table.addConstructor place parameters).layers.size = table.layers.size :=
    Array.size_modify
  constructor
  · intro one other edge
    rw [size]
    rcases refers edge with old | ⟨-, parameter, mem, rfl⟩
    · exact grounded.closed one other old
    · exact known parameter mem
  · intro one cycle
    rcases reaches cycle with old | ⟨comes, parameter, mem, goes⟩
    · exact grounded.acyclic one old
    · exact apart parameter mem (goes.trans comes)

/-- The tables that come about by adding types and constructors, where no constructor leads back to
the class that it is added to. -/
inductive Built : TypeTable → Prop
  | builtins : Built builtins
  | add {table : TypeTable} {layer : TyLayer Place} (built : Built table)
      (known : ∀ other ∈ layer.below, other < table.layers.size) : Built (table.add layer).2
  | addConstructor {table : TypeTable} {place : Place} {parameters : List (String × Place)}
      (built : Built table) (known : ∀ parameter ∈ parameters, parameter.2 < table.layers.size)
      (apart : ∀ parameter ∈ parameters,
        ¬ Relation.ReflTransGen table.Refers parameter.2 place) :
      Built (table.addConstructor place parameters)

theorem Built.grounded (built : table.Built) : table.Grounded := by
  induction built with
  | builtins => exact grounded_builtins
  | add _ known ih => exact ih.add known
  | addConstructor _ known apart ih => exact ih.addConstructor known apart

end Building

end TypeTable

end ScriptCore
