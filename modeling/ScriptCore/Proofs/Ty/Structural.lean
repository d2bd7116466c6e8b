import ScriptCore.Proofs.Ty.Grounded

/-!
# Equality of types is structural

Types are shared, so a comparison first asks whether both sides are one object, and goes into their
layers otherwise. In a grounded table it tells whether both stand for the same tree
(`same_iff_unfold_eq`), and it would do so without asking for identity (`same_eq_samePlainly`).
So it is an equivalence, and acceptance is a preorder.
-/
namespace ScriptCore

section Pairwise

variable {α β γ : Type} {related related' : α → β → Bool} {as : List α} {bs : List β}

theorem pairwise_congr (same : ∀ a ∈ as, ∀ b, related a b = related' a b) :
    pairwise related as bs = pairwise related' as bs := by
  have zipped : ((as.zip bs).all fun ab => related ab.1 ab.2) =
      (as.zip bs).all fun ab => related' ab.1 ab.2 := by
    rw [Bool.eq_iff_iff, List.all_eq_true, List.all_eq_true]
    refine forall₂_congr fun ab mem => ?_
    rw [same ab.1 (List.of_mem_zip mem).1 ab.2]
  rw [pairwise, pairwise, zipped]

/-- Two lists are related one by one if their images are equal, and only then. -/
theorem pairwise_iff_map_eq {f : α → γ} {g : β → γ}
    (image : ∀ a ∈ as, ∀ b ∈ bs, related a b = true ↔ f a = g b) :
    pairwise related as bs = true ↔ as.map f = bs.map g := by
  induction as generalizing bs with
  | nil => cases bs <;> simp [pairwise]
  | cons a as ih =>
    cases bs with
    | nil => simp [pairwise]
    | cons b bs =>
      have first := image a List.mem_cons_self b List.mem_cons_self
      have rest := ih fun a mem b mem' =>
        image a (List.mem_cons_of_mem _ mem) b (List.mem_cons_of_mem _ mem')
      rw [pairwise] at rest ⊢
      simp only [Bool.and_eq_true, decide_eq_true_eq] at rest
      rw [List.map_cons, List.map_cons, List.cons.injEq, ← first, ← rest]
      simp only [List.length_cons, Nat.add_right_cancel_iff, List.zip_cons_cons, List.all_cons,
        Bool.and_eq_true, decide_eq_true_eq]
      exact and_left_comm

end Pairwise

namespace TyLayer

variable {τ σ : Type} {same same' : τ → τ → Bool} {f g : τ → σ} {layer layer' : TyLayer τ}

section Parameters

variable {as bs : List (String × τ)}

theorem sameParameters_congr (below : ∀ a ∈ as.map Prod.snd, ∀ b, same a b = same' a b) :
    sameParameters same as bs = sameParameters same' as bs :=
  pairwise_congr fun a mem b => by rw [below a.2 (List.mem_map_of_mem mem) b.2]

theorem sameParameters_iff
    (below : ∀ a ∈ as.map Prod.snd, ∀ b ∈ bs.map Prod.snd, same a b = true ↔ f a = f b) :
    sameParameters same as bs = true ↔ mapParameters f as = mapParameters f bs := by
  refine pairwise_iff_map_eq fun a mem b mem' => ?_
  rw [Bool.and_eq_true, decide_eq_true_eq, Prod.mk.injEq,
    below a.2 (List.mem_map_of_mem mem) b.2 (List.mem_map_of_mem mem')]

theorem mapParameters_congr (below : ∀ a ∈ as.map Prod.snd, f a = g a) :
    mapParameters f as = mapParameters g as :=
  List.map_congr_left fun a mem => by rw [below a.2 (List.mem_map_of_mem mem)]

end Parameters

theorem map_congr (below : ∀ a ∈ layer.below, f a = g a) : layer.map f = layer.map g := by
  cases layer with
  | cls name fields constructors =>
    have inFields : mapParameters f fields = mapParameters g fields :=
      mapParameters_congr fun a mem => below a (List.mem_append_left _ mem)
    have inConstructors : constructors.map (mapParameters f) =
        constructors.map (mapParameters g) := by
      refine List.map_congr_left fun parameters mem => mapParameters_congr fun a mem' => ?_
      exact below a (List.mem_append_right _ (List.mem_flatMap.mpr ⟨parameters, mem, mem'⟩))
    rw [map, map, inFields, inConstructors]
  | fn parameters result receiver =>
    have inParameters : mapParameters f parameters = mapParameters g parameters :=
      mapParameters_congr fun a mem => below a (List.mem_append_left _ mem)
    have inResult : f result = g result :=
      below result (List.mem_append_right _ List.mem_cons_self)
    have inReceiver : receiver.map f = receiver.map g := by
      refine Option.map_congr fun a mem => below a (List.mem_append_right _ ?_)
      exact List.mem_cons_of_mem _ (Option.mem_toList.mpr mem)
    rw [map, map, inParameters, inResult, inReceiver]

theorem sameBy_congr (below : ∀ a ∈ layer.below, ∀ b, same a b = same' a b) :
    layer.sameBy same layer' = layer.sameBy same' layer' := by
  cases layer with
  | cls name fields constructors =>
    cases layer' with
    | fn _ _ _ => rfl
    | cls name' fields' constructors' =>
      have inFields : sameParameters same fields fields' = sameParameters same' fields fields' :=
        sameParameters_congr fun a mem => below a (List.mem_append_left _ mem)
      have inConstructors : pairwise (sameParameters same) constructors constructors' =
          pairwise (sameParameters same') constructors constructors' := by
        refine pairwise_congr fun parameters mem _ => sameParameters_congr fun a mem' => ?_
        exact below a (List.mem_append_right _ (List.mem_flatMap.mpr ⟨parameters, mem, mem'⟩))
      rw [sameBy, sameBy, inFields, inConstructors]
  | fn parameters result receiver =>
    cases layer' with
    | cls _ _ _ => rfl
    | fn parameters' result' receiver' =>
      have inParameters : sameParameters same parameters parameters' =
          sameParameters same' parameters parameters' :=
        sameParameters_congr fun a mem => below a (List.mem_append_left _ mem)
      have inResult : same result result' = same' result result' :=
        below result (List.mem_append_right _ List.mem_cons_self) result'
      have inReceiver : sameReceiver same receiver receiver' =
          sameReceiver same' receiver receiver' := by
        cases receiver with
        | none => cases receiver' <;> rfl
        | some a =>
          cases receiver' with
          | none => rfl
          | some b => exact below a (List.mem_append_right _ (by simp)) b
      rw [sameBy, sameBy, inParameters, inResult, inReceiver]

/-- Layers are compared as the trees are that the types below them stand for. -/
theorem sameBy_iff
    (below : ∀ a ∈ layer.below, ∀ b ∈ layer'.below, same a b = true ↔ f a = f b) :
    layer.sameBy same layer' = true ↔ layer.map f = layer'.map f := by
  cases layer with
  | cls name fields constructors =>
    cases layer' with
    | fn _ _ _ => simp [sameBy, map]
    | cls name' fields' constructors' =>
      have inFields : sameParameters same fields fields' = true ↔
          mapParameters f fields = mapParameters f fields' :=
        sameParameters_iff fun a mem b mem' =>
          below a (List.mem_append_left _ mem) b (List.mem_append_left _ mem')
      have inConstructors : pairwise (sameParameters same) constructors constructors' = true ↔
          constructors.map (mapParameters f) = constructors'.map (mapParameters f) := by
        refine pairwise_iff_map_eq fun parameters mem parameters' mem' =>
          sameParameters_iff fun a mem₁ b mem₁' => below a ?_ b ?_
        · exact List.mem_append_right _ (List.mem_flatMap.mpr ⟨parameters, mem, mem₁⟩)
        · exact List.mem_append_right _ (List.mem_flatMap.mpr ⟨parameters', mem', mem₁'⟩)
      rw [sameBy, map, map, cls.injEq, Bool.and_eq_true, Bool.and_eq_true, decide_eq_true_eq,
        inFields, inConstructors, and_assoc]
  | fn parameters result receiver =>
    cases layer' with
    | cls _ _ _ => simp [sameBy, map]
    | fn parameters' result' receiver' =>
      have inParameters : sameParameters same parameters parameters' = true ↔
          mapParameters f parameters = mapParameters f parameters' :=
        sameParameters_iff fun a mem b mem' =>
          below a (List.mem_append_left _ mem) b (List.mem_append_left _ mem')
      have inResult : same result result' = true ↔ f result = f result' :=
        below result (List.mem_append_right _ List.mem_cons_self) result'
          (List.mem_append_right _ List.mem_cons_self)
      have inReceiver : sameReceiver same receiver receiver' = true ↔
          receiver.map f = receiver'.map f := by
        cases receiver with
        | none => cases receiver' <;> simp [sameReceiver]
        | some a =>
          cases receiver' with
          | none => simp [sameReceiver]
          | some b =>
            rw [Option.map_some, Option.map_some, Option.some.injEq]
            exact below a (List.mem_append_right _ (by simp)) b
              (List.mem_append_right _ (by simp))
      rw [sameBy, map, map, fn.injEq, Bool.and_eq_true, Bool.and_eq_true, inParameters, inResult,
        inReceiver, and_assoc]

end TyLayer

namespace TypeTable

variable {table : TypeTable} {a b c : Place}

/-- Whether two places hold layers that are the same over an equality of the types below. -/
def sameLayers (table : TypeTable) (same : Place → Place → Bool) (a b : Place) : Bool :=
  match table.layer? a, table.layer? b with
  | some layer, some layer' => layer.sameBy same layer'
  | _, _ => false

/-- The comparison that never asks for identity, looking through at most `depth` layers. -/
def samePlainlyWithin (table : TypeTable) : (depth : Nat) → Place → Place → Bool
  | 0, _, _ => false
  | depth + 1, a, b => table.sameLayers (samePlainlyWithin table depth) a b

/-- Whether two places hold the same type, found without asking for identity. -/
def samePlainly (table : TypeTable) (a b : Place) : Bool :=
  table.samePlainlyWithin table.depth a b

/-- Layers are compared by what is said of the types that they refer to. -/
theorem sameLayers_congr {same same' : Place → Place → Bool}
    (below : ∀ other, table.Refers a other → same other = same' other) (b : Place) :
    table.sameLayers same a b = table.sameLayers same' a b := by
  rw [sameLayers, sameLayers]
  cases there : table.layer? a with
  | none => rfl
  | some layer =>
    cases table.layer? b with
    | none => rfl
    | some layer' =>
      exact TyLayer.sameBy_congr fun other mem => congrFun (below other ⟨layer, there, mem⟩)

namespace Grounded

variable (grounded : table.Grounded)

include grounded

/-- A type stands for the tree that its layer makes of the trees below. -/
theorem unfold_eq {layer : TyLayer Place} (there : table.layer? a = some layer) :
    table.unfold a = .ofLayer (layer.map table.unfold) := by
  have walked := grounded.walk_eq table.unfoldWithin
    (fun place below => ((table.layer? place).map fun layer => Ty.ofLayer (layer.map below)).getD
      .unit) (fun depth place => ?_) (fun place f g same => ?_) a
  · rw [there] at walked
    exact walked
  · rw [unfoldWithin]
    cases table.layer? place <;> rfl
  · cases inside : table.layer? place with
    | none => rfl
    | some layer =>
      exact congrArg Ty.ofLayer (TyLayer.map_congr fun other mem => same other ⟨layer, inside, mem⟩)

/-- Two types are the same if they are one object or if their layers are the same. -/
theorem same_eq (a b : Place) :
    table.same a b = (decide (a = b) || table.sameLayers table.same a b) := by
  have walked := grounded.walk_eq table.sameWithin
    (fun a below b => decide (a = b) || table.sameLayers below a b) (fun _ _ => rfl)
    (fun a f g below => ?_) a
  · exact congrFun walked b
  · funext b
    rw [sameLayers_congr below]

theorem samePlainly_eq (a b : Place) :
    table.samePlainly a b = table.sameLayers table.samePlainly a b := by
  have walked := grounded.walk_eq table.samePlainlyWithin
    (fun a below b => table.sameLayers below a b) (fun _ _ => rfl) (fun a f g below => ?_) a
  · exact congrFun walked b
  · funext b
    exact sameLayers_congr below b

/-- A comparison that goes from types to their layers, with or without a shortcut for one and the
same type, tells whether they stand for the same tree. -/
theorem iff_unfold_eq {same : Place → Place → Bool}
    (complete : ∀ a b, table.sameLayers same a b = true → same a b = true)
    (sound : ∀ a b, same a b = true → a = b ∨ table.sameLayers same a b = true)
    (inside : a < table.layers.size) (inside' : b < table.layers.size) :
    same a b = true ↔ table.unfold a = table.unfold b := by
  revert b inside
  refine grounded.induction_below (P := fun a => ∀ {b}, a < table.layers.size →
    b < table.layers.size → (same a b = true ↔ table.unfold a = table.unfold b)) ?_ a
  intro a ih b inside inside'
  obtain ⟨layer, there⟩ := layer?_of_lt inside
  obtain ⟨layer', there'⟩ := layer?_of_lt inside'
  have structural : table.sameLayers same a b = true ↔ table.unfold a = table.unfold b := by
    rw [sameLayers, there, there', grounded.unfold_eq there, grounded.unfold_eq there',
      (Function.LeftInverse.injective Ty.layer_ofLayer).eq_iff]
    refine TyLayer.sameBy_iff fun other mem other' mem' => ih other ⟨layer, there, mem⟩ ?_ ?_
    · exact grounded.closed a other ⟨layer, there, mem⟩
    · exact grounded.closed b other' ⟨layer', there', mem'⟩
  constructor
  · intro equal
    rcases sound a b equal with rfl | layers
    · rfl
    · exact structural.mp layers
  · exact fun trees => complete a b (structural.mpr trees)

theorem same_iff_unfold_eq (inside : a < table.layers.size) (inside' : b < table.layers.size) :
    table.same a b = true ↔ table.unfold a = table.unfold b := by
  refine grounded.iff_unfold_eq (fun a b => ?_) (fun a b => ?_) inside inside'
  all_goals rw [grounded.same_eq, Bool.or_eq_true, decide_eq_true_eq]
  · exact .inr
  · exact id

theorem samePlainly_iff_unfold_eq (inside : a < table.layers.size)
    (inside' : b < table.layers.size) :
    table.samePlainly a b = true ↔ table.unfold a = table.unfold b := by
  refine grounded.iff_unfold_eq (fun a b => ?_) (fun a b => ?_) inside inside'
  all_goals rw [grounded.samePlainly_eq]
  · exact id
  · exact .inr

end Grounded

theorem accepts_iff :
    table.accepts a b = true ↔ table.same a any = true ∨ table.same a b = true := by
  rw [accepts, isAny, Bool.or_eq_true]

/-- With `Any` in its place, types are accepted as the trees are that they stand for. -/
theorem Grounded.accepts_eq (grounded : table.Grounded) (isAny : table.unfold any = .any)
    (inside : a < table.layers.size) (inside' : b < table.layers.size) :
    table.accepts a b = (table.unfold a).accepts (table.unfold b) := by
  have anyInside : any < table.layers.size := Nat.zero_lt_of_lt inside
  rw [Bool.eq_iff_iff, accepts_iff, Ty.accepts_iff, grounded.same_iff_unfold_eq inside anyInside,
    grounded.same_iff_unfold_eq inside inside', isAny]

section Parts

variable {whole : TypeTable} {place : Place}

/-- All types of the first table are in the second one as well, as they were. -/
def PartOf (table whole : TypeTable) : Prop :=
  ∀ place layer, table.layer? place = some layer → whole.layer? place = some layer

theorem PartOf.inside (part : table.PartOf whole) (inside : place < table.layers.size) :
    place < whole.layers.size := by
  obtain ⟨layer, there⟩ := layer?_of_lt inside
  exact (Array.getElem?_eq_some_iff.mp (part place layer there)).1

/-- The types of a part stand for the same trees in the whole table. -/
theorem Grounded.unfold_of_partOf (grounded : table.Grounded) (grounded' : whole.Grounded)
    (part : table.PartOf whole) (inside : place < table.layers.size) :
    whole.unfold place = table.unfold place := by
  revert inside
  refine grounded.induction_below (P := fun place => place < table.layers.size →
    whole.unfold place = table.unfold place) (fun place ih inside => ?_) place
  obtain ⟨layer, there⟩ := layer?_of_lt inside
  rw [grounded.unfold_eq there, grounded'.unfold_eq (part place layer there)]
  refine congrArg Ty.ofLayer (TyLayer.map_congr fun other mem => ?_)
  exact ih other ⟨layer, there, mem⟩ (grounded.closed place other ⟨layer, there, mem⟩)

/-- A builtin class that has got no constructor stands for its type. -/
theorem Grounded.unfold_builtin (grounded : table.Grounded) (kept : builtins.PartOf table)
    {type : ClassTy} (known : ClassTy.builtins[place]? = some type) :
    table.unfold place = .cls type := by
  obtain ⟨inside, -⟩ := List.getElem?_eq_some_iff.mp known
  rw [grounded_builtins.unfold_of_partOf grounded kept inside]
  have all := congrArg (·[place]?) unfold_builtins
  simpa [builtinPlaces, known] using all

section Builtins

variable (grounded : table.Grounded) (kept : builtins.PartOf table) {type : ClassTy}

include grounded kept

theorem Grounded.same_builtin_iff (known : ClassTy.builtins[place]? = some type)
    (inside : a < table.layers.size) :
    table.same place a = true ↔ .cls type = table.unfold a := by
  have builtinInside : place < table.layers.size :=
    kept.inside (List.getElem?_eq_some_iff.mp known).1
  rw [grounded.same_iff_unfold_eq builtinInside inside, grounded.unfold_builtin kept known]

theorem Grounded.builtin_accepts_eq (known : ClassTy.builtins[place]? = some type)
    (inside : a < table.layers.size) :
    table.accepts place a = (Ty.cls type).accepts (table.unfold a) := by
  have builtinInside : place < table.layers.size :=
    kept.inside (List.getElem?_eq_some_iff.mp known).1
  have isAny : table.unfold any = .any :=
    grounded.unfold_builtin kept (rfl : ClassTy.builtins[any]? = some .any)
  rw [grounded.accepts_eq isAny builtinInside inside, grounded.unfold_builtin kept known]

theorem Grounded.isAny_eq (inside : a < table.layers.size) :
    table.isAny a = (table.unfold a).isAny := by
  have anyInside : any < table.layers.size := Nat.zero_lt_of_lt inside
  rw [Bool.eq_iff_iff, TypeTable.isAny, grounded.same_iff_unfold_eq inside anyInside,
    grounded.unfold_builtin kept (rfl : ClassTy.builtins[any]? = some .any), Ty.isAny,
    decide_eq_true_eq]
  rfl

theorem Grounded.isNumber_eq (inside : a < table.layers.size) :
    table.isNumber a = (table.unfold a).isNumber := by
  have intInside : int < table.layers.size := kept.inside (by decide : int < _)
  have doubleInside : double < table.layers.size := kept.inside (by decide : double < _)
  rw [Bool.eq_iff_iff, TypeTable.isNumber, Ty.isNumber, Bool.or_eq_true, Bool.or_eq_true,
    grounded.same_iff_unfold_eq inside intInside, grounded.same_iff_unfold_eq inside doubleInside,
    grounded.unfold_builtin kept (rfl : ClassTy.builtins[int]? = some .int),
    grounded.unfold_builtin kept (rfl : ClassTy.builtins[double]? = some .double),
    decide_eq_true_eq, decide_eq_true_eq]
  rfl

end Builtins

end Parts

/-- In a table without self-reference a type stands for the tree that its layer makes of the trees
below. Two types are the same if these trees are equal, and only then, so that the comparison would
have the same answers without its shortcut for one and the same type. It is an equivalence; a type
accepts another if it is the same as `Any` or as the other, and this is a preorder. -/
theorem same_is_equality_of_trees (grounded : table.Grounded) :
    (∀ place layer, table.layer? place = some layer →
      table.unfold place = .ofLayer (layer.map table.unfold)) ∧
    ∀ a < table.layers.size, ∀ b < table.layers.size, ∀ c < table.layers.size,
      (table.same a b = true ↔ table.unfold a = table.unfold b) ∧
      table.same a b = table.samePlainly a b ∧
      table.same a a = true ∧
      (table.same a b = true → table.same b a = true) ∧
      (table.same a b = true → table.same b c = true → table.same a c = true) ∧
      (table.accepts a b = true ↔ table.same a any = true ∨ table.same a b = true) ∧
      table.accepts a a = true ∧
      (table.accepts a b = true → table.accepts b c = true → table.accepts a c = true) := by
  refine ⟨fun place layer there => grounded.unfold_eq there, fun a ha b hb c hc => ?_⟩
  have anyInside : any < table.layers.size := Nat.zero_lt_of_lt ha
  have reflexive : table.same a a = true := (grounded.same_iff_unfold_eq ha ha).mpr rfl
  have transitive {d : Place} (hd : d < table.layers.size) (first : table.same a b = true)
      (second : table.same b d = true) : table.same a d = true := by
    rw [grounded.same_iff_unfold_eq ha hb] at first
    rw [grounded.same_iff_unfold_eq hb hd] at second
    exact (grounded.same_iff_unfold_eq ha hd).mpr (first.trans second)
  refine ⟨grounded.same_iff_unfold_eq ha hb, ?_, reflexive, fun same => ?_, transitive hc,
    accepts_iff, accepts_iff.mpr (.inr reflexive), fun first second => ?_⟩
  · rw [Bool.eq_iff_iff, grounded.same_iff_unfold_eq ha hb,
      grounded.samePlainly_iff_unfold_eq ha hb]
  · rw [grounded.same_iff_unfold_eq ha hb] at same
    exact (grounded.same_iff_unfold_eq hb ha).mpr same.symm
  · rw [accepts_iff] at first second ⊢
    rcases first with isAny | same
    · exact .inl isAny
    · exact second.imp (transitive anyInside same) (transitive hc same)

/-- Two records of one form and a function on each. Each record has got a constructor later, from a
class that is younger than both. -/
def twoPoints : TypeTable :=
  let records : TypeTable := ⟨builtins.layers ++ #[
    .cls "Point" [("x", int)] [], .cls "Point" [("x", int)] [],
    .fn [("p", 6)] 5 none, .fn [("p", 7)] 5 none, .cls "Origin" [] []]⟩
  (records.addConstructor 6 [("origin", 10)]).addConstructor 7 [("origin", 10)]

theorem same_is_equality_of_trees_twoPoints :
    twoPoints.Grounded ∧ twoPoints.same 8 9 = true ∧ twoPoints.samePlainly 8 9 = true ∧
      twoPoints.accepts 9 8 = true ∧ twoPoints.unfold 8 ≠ twoPoints.unfold 6 := by
  have grounded : twoPoints.Grounded :=
    grounded_of_rank (fun place => [0, 1, 0, 0, 0, 0, 1, 1, 2, 2, 0].getD place 0) (by decide)
  obtain ⟨-, types⟩ := same_is_equality_of_trees grounded
  obtain ⟨trees, plainly, -, symmetric, -⟩ := types 8 (by decide) 9 (by decide) 0 (by decide)
  obtain ⟨-, -, -, -, -, accepts, -⟩ := types 9 (by decide) 8 (by decide) 0 (by decide)
  obtain ⟨apart, -⟩ := types 8 (by decide) 6 (by decide) 0 (by decide)
  have same : twoPoints.same 8 9 = true := trees.mpr (by decide)
  have different : twoPoints.same 8 6 ≠ true := by decide
  exact ⟨grounded, same, plainly ▸ same, accepts.mpr (.inr (symmetric same)),
    fun equal => different (apart.mpr equal)⟩

end TypeTable

end ScriptCore
