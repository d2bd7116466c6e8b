import ScriptCore.Ty.Overload

/-!
# Indexed names

An indexed name determines the name and the index that it is made of, also when the name itself
ends like an indexed one: the digits of an index hold no hyphen, so the last hyphen is the one in
front of the index.
-/
namespace ScriptCore

/-- Two lists that are equal are split at the last occurrence of a value in one way. -/
theorem append_cons_inj {α : Type} {a b c d : List α} {x : α} (h : a ++ x :: b = c ++ x :: d)
    (left : x ∉ b) (right : x ∉ d) : a = c ∧ b = d := by
  rcases List.append_eq_append_iff.mp h with ⟨between, rfl, same⟩ | ⟨between, rfl, same⟩
  · cases between with
    | nil => simpa using same
    | cons y rest =>
      obtain ⟨rfl, rfl⟩ := List.cons.inj same
      exact absurd (by simp) left
  · cases between with
    | nil => simpa [eq_comm] using same
    | cons y rest =>
      obtain ⟨rfl, rfl⟩ := List.cons.inj same
      exact absurd (by simp) right

theorem hyphen_notMem_digits (index : Nat) : '-' ∉ Nat.toDigits 10 index := by
  intro mem
  have digit := Nat.isDigit_of_mem_toDigits (by decide) (by decide) mem
  revert digit
  decide

theorem toList_overloadName (name : String) (index : Nat) :
    (overloadName name index).toList = name.toList ++ '-' :: Nat.toDigits 10 index := by
  simp [overloadName]

theorem overloadName_inj {name other : String} {index otherIndex : Nat}
    (h : overloadName name index = overloadName other otherIndex) :
    name = other ∧ index = otherIndex := by
  have lists := congrArg String.toList h
  rw [toList_overloadName, toList_overloadName] at lists
  obtain ⟨names, digits⟩ :=
    append_cons_inj lists (hyphen_notMem_digits index) (hyphen_notMem_digits otherIndex)
  have values := congrArg (Nat.ofDigitChars 10 · 0) digits
  simp only [Nat.ofDigitChars_ten_toDigits] at values
  exact ⟨String.toList_inj.mp names, values⟩

end ScriptCore
