/-! # Validation reports

Checking a structure of options gives a finding for every part that fails. A
report shows one finding a line, in the order of their lines.
-/

namespace PubSub

structure Finding where
  /-- The field, `section.field` within a section, or `__all__` for a structure as a whole. -/
  path : String
  text : String
  deriving DecidableEq, Repr

namespace Finding

/-- The path of a check over a whole structure. -/
def whole : String := "__all__"

def line (f : Finding) : String := s!"{f.path}: {f.text}"

/-- The finding as seen from the structure around it. -/
def within (name : String) (f : Finding) : Finding := { f with path := s!"{name}.{f.path}" }

end Finding

namespace Report

/-- A finding where the check fails. -/
def require (ok : Bool) (path text : String) : List Finding :=
  if ok then [] else [⟨path, text⟩]

/-- The check over a whole structure counts only where nothing in it has failed. -/
def orElse (parts whole : List Finding) : List Finding :=
  if parts.isEmpty then whole else parts

/-- A canonical form of a report: in what order and with what marks between them the findings are
shown is left open by the checks. -/
def text (findings : List Finding) : String :=
  "\n".intercalate ((findings.map Finding.line).mergeSort (fun a b => decide (a ≤ b)))

@[simp]
theorem require_eq_nil_iff {ok : Bool} {path text : String} :
    require ok path text = [] ↔ ok = true := by
  unfold require
  split <;> simp_all

theorem orElse_eq_nil_iff {parts whole : List Finding} :
    orElse parts whole = [] ↔ parts = [] ∧ whole = [] := by
  unfold orElse
  split <;> simp_all

end Report

end PubSub
