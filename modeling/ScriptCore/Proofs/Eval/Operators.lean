import ScriptCore.Eval.Operators

/-!
# What operators do on values of each type

Operators fail on operands of the wrong types alone, and a value of the right type has a result
of the type that typing gives to the operation. No result is a callable.
-/
namespace ScriptCore.Value

theorem truth_eq_error {value : Value} {f : Fault} (h : value.truth = .error f) :
    f = .invalidType "Boolean" value.type.render := by
  simp only [truth] at h
  split at h
  · cases h
  · exact (Except.error.inj h).symm

theorem unary_eq_error {op : UnaryOp} {right : Value} {f : Fault} (h : unary op right = .error f) :
    ∃ expected, f = .invalidType expected right.type.render := by
  simp only [unary] at h
  split at h
  · cases h
  · cases h
  · exact ⟨_, (Except.error.inj h).symm⟩
  · cases truth : right.truth with
    | ok b =>
      rw [truth] at h
      cases h
    | error f' =>
      rw [truth] at h
      cases h
      exact ⟨_, truth_eq_error truth⟩

theorem binary_eq_error {op : BinaryOp} {left right : Value} {f : Fault}
    (h : binary op left right = .error f) : f = invalidOperands op left right := by
  simp only [binary] at h
  split at h
  · cases h
  · split at h
    · cases h
    · exact (Except.error.inj h).symm

theorem asCallable?_ofLiteral (literal : Literal) : (ofLiteral literal).asCallable? = none := by
  cases literal <;> rfl

theorem asCallable?_unary {op : UnaryOp} {right value : Value}
    (computed : unary op right = .ok value) : value.asCallable? = none := by
  rw [unary.eq_def] at computed
  split at computed
  · cases computed
    rfl
  · cases computed
    rfl
  · cases computed
  · cases tested : right.truth with
    | ok b =>
      rw [tested] at computed
      cases computed
      rfl
    | error fault =>
      rw [tested] at computed
      cases computed

theorem asCallable?_binary {op : BinaryOp} {left right value : Value}
    (computed : binary op left right = .ok value) : value.asCallable? = none := by
  have numeric {x y : Float} (computed : numeric? op x y = some value) :
      value.asCallable? = none := by
    cases op <;> cases computed <;> rfl
  have concatenation (computed : concatenation? op left right = some value) :
      value.asCallable? = none := by
    rw [concatenation?.eq_def] at computed
    split at computed <;> cases computed
    rfl
  rw [binary] at computed
  split at computed
  · cases computed
    rfl
  · dsimp only at computed
    split at computed
    · rename_i found
      cases computed
      split at found
      · exact numeric found
      · exact concatenation found
    · cases computed

end ScriptCore.Value
