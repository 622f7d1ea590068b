import PubSub.Error
import PubSub.Text.Hex

/-! # Client ids

A client is known to the server by its id. A client without one is given a
generated id, which begins with a fixed mark.
-/

namespace PubSub

namespace ClientId

/-- The longest id in bytes. -/
def maxSize : Nat := 256

def isAllowed (c : Char) : Bool := c.isAlphanum || "%/._".toList.contains c

def check (id : String) : Outcome :=
  if id = "" || maxSize < id.utf8ByteSize then
    .error (.argument s!"client id must be between 1 and {maxSize} characters")
  else
    match id.toList.find? (!isAllowed ·) with
    | some c => .error (.argument s!"client id '{id}' contains invalid character '{c}'")
    | none => .ok ()

/-- What a generated id begins with. -/
def generatedMark : String := "AUTO_"

/-- The mark and seven hexadecimal digits of a number. -/
def generate (n : Nat) : String := generatedMark ++ Hex.padded 7 (n % Nat.pow 16 7)

theorem check_eq_ok_iff {id : String} :
    check id = .ok () ↔ id ≠ "" ∧ id.utf8ByteSize ≤ maxSize ∧ id.toList.all isAllowed := by
  unfold check
  split
  · next h =>
    simp only [Bool.or_eq_true, decide_eq_true_eq] at h
    constructor
    · simp
    · rintro ⟨h₁, h₂, _⟩
      exact absurd h (by simp [h₁]; omega)
  · next h =>
    simp only [Bool.or_eq_true, decide_eq_true_eq, not_or, Nat.not_lt] at h
    cases hf : id.toList.find? (!isAllowed ·) with
    | some c =>
      have hc := List.find?_some hf
      have hm := List.mem_of_find?_eq_some hf
      simp only [reduceCtorEq, false_iff, not_and]
      intro _ _ hall
      simp_all [List.all_eq_true]
    | none =>
      rw [List.find?_eq_none] at hf
      simp only [true_iff]
      exact ⟨h.1, h.2, by simpa [List.all_eq_true] using hf⟩

end ClientId

end PubSub
