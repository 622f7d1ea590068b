import Mathlib.Data.List.Rotate
import PubSub.Proofs.Waits

/-! # Rounds of a rotation

A rotation is asked for endpoints and is told which of them work. Whatever the
order, a round hands out every endpoint once, beginning with the one that
worked last, and the pauses between rounds follow the schedule, which begins
anew with every report.
-/

namespace PubSub

namespace Rotation

inductive Use where
  | lookup
  /-- A connection to the endpoint succeeded. -/
  | report (endpoint : Endpoint)
  deriving DecidableEq, Repr

namespace Use

end Use

def index (r : Rotation) : Nat := (r.start + r.tried) % r.endpoints.length

namespace Answer

def ofPause : Backoff.Answer → Answer
  | .wait delay => wait delay
  | .exhausted attempts => exhausted attempts
  | .overflow => overflow

end Answer

variable {r : Rotation}

/-- The endpoints stay, and where a round starts and stands is within them. -/
structure Within (es : List Endpoint) (r : Rotation) : Prop where
  endpoints : r.endpoints = es
  start : r.start < es.length
  tried : r.tried ≤ es.length

theorem Within.report {es : List Endpoint} (h : Within es r) (e : Endpoint) :
    Within es (r.succeed e) := by
  obtain ⟨rfl, hs, ht⟩ := h
  refine ⟨rfl, ?_, Nat.zero_le _⟩
  unfold succeed
  dsimp only
  cases hf : r.endpoints.findIdx? (· = e) with
  | none => exact hs
  | some i => exact (List.findIdx?_eq_some_iff_getElem.mp hf).1

section Uses

variable [OverflowChecks] {uses more : List Use}

def use (r : Rotation) : Use → Rotation
  | .lookup => r.next.2
  | .report e => r.succeed e

def after (r : Rotation) (uses : List Use) : Rotation := uses.foldl use r

def answers (r : Rotation) : List Use → List Answer
  | [] => []
  | .lookup :: uses => r.next.1 :: r.next.2.answers uses
  | .report e :: uses => (r.succeed e).answers uses

@[simp]
theorem after_nil : r.after [] = r := rfl

@[simp]
theorem after_cons (u : Use) : r.after (u :: uses) = (r.use u).after uses := rfl

theorem after_append : r.after (uses ++ more) = (r.after uses).after more := List.foldl_append ..

theorem answers_append :
    r.answers (uses ++ more) = r.answers uses ++ (r.after uses).answers more := by
  induction uses generalizing r with
  | nil => rfl
  | cons u uses ih => cases u <;> simp [answers, use, ih]

theorem next_of_lt (h : r.tried < r.endpoints.length) :
    ∃ e, r.endpoints[r.index]? = some e ∧
      r.next = (.found e, { r with tried := r.tried + 1 }) := by
  have hi : r.index < r.endpoints.length := Nat.mod_lt _ (by omega)
  refine ⟨r.endpoints[r.index], List.getElem?_eq_getElem hi, ?_⟩
  have hg : r.endpoints[(r.start + r.tried) % r.endpoints.length]? = some r.endpoints[r.index] :=
    List.getElem?_eq_getElem hi
  rw [next, if_pos h, hg]

theorem next_of_le (h : r.endpoints.length ≤ r.tried) :
    r.next = (.ofPause r.backoff.next.1, { r with tried := 0, backoff := r.backoff.next.2 }) := by
  rw [next, if_neg (Nat.not_lt.mpr h), pause]
  cases hb : r.backoff.next with
  | mk answer backoff => cases answer <;> rfl

namespace Within

variable {es : List Endpoint}

theorem lookup (h : Within es r) : Within es r.next.2 := by
  obtain ⟨rfl, hs, ht⟩ := h
  rcases Nat.lt_or_ge r.tried r.endpoints.length with hlt | hge
  · obtain ⟨e, -, he⟩ := next_of_lt hlt
    rw [he]
    exact ⟨rfl, hs, hlt⟩
  · rw [next_of_le hge]
    exact ⟨rfl, hs, Nat.zero_le _⟩

theorem after (h : Within es r) (uses : List Use) : Within es (r.after uses) := by
  induction uses generalizing r with
  | nil => exact h
  | cons u uses ih =>
    cases u with
    | lookup => exact ih h.lookup
    | report e => exact ih (h.report e)

/-- Lookups in a row hand out one endpoint after the other, as far as the round goes. -/
theorem lookups (h : Within es r) {count : Nat} (hc : r.tried + count ≤ es.length) :
    (r.answers (List.replicate count .lookup)).map some =
        (List.range' r.tried count).map (fun i => es[(r.start + i) % es.length]?.map .found) ∧
      r.after (List.replicate count .lookup) = { r with tried := r.tried + count } := by
  induction count generalizing r with
  | zero => exact ⟨rfl, rfl⟩
  | succ count ih =>
    have hlt : r.tried < r.endpoints.length := by rw [h.endpoints]; omega
    obtain ⟨e, he, hn⟩ := next_of_lt hlt
    rw [index, h.endpoints] at he
    obtain ⟨ha, hs⟩ := ih (r := r.next.2) h.lookup (by rw [hn]; dsimp only; omega)
    rw [List.replicate_succ]
    constructor
    · rw [List.range'_succ, List.map_cons, he, answers, List.map_cons, ha, hn]
      rfl
    · rw [after_cons, use, hs, hn]
      simp only [Nat.add_assoc, Nat.add_comm 1]

end Within

section Schedule

variable (r)

@[simp]
theorem endpoints_next : r.next.2.endpoints = r.endpoints := by
  rcases Nat.lt_or_ge r.tried r.endpoints.length with h | h
  · obtain ⟨e, -, he⟩ := next_of_lt h
    rw [he]
  · rw [next_of_le h]

/-- However it is used, the schedule begins anew in the same way. -/
theorem reset_backoff (uses : List Use) : (r.after uses).backoff.reset = r.backoff.reset := by
  induction uses generalizing r with
  | nil => rfl
  | cons u uses ih =>
    rw [after_cons, ih]
    cases u with
    | report e => rfl
    | lookup =>
      rcases Nat.lt_or_ge r.tried r.endpoints.length with h | h
      · obtain ⟨e, -, he⟩ := next_of_lt h
        rw [use, he]
      · rw [use, next_of_le h]
        exact r.backoff.reset_next

end Schedule

/-- A round is about to begin: nothing has happened yet, or a report, or the end of a round. -/
inductive BeginsRound (r : Rotation) : List Use → Prop where
  | new : BeginsRound r []
  | report (earlier : List Use) (e : Endpoint) : BeginsRound r (earlier ++ [.report e])
  | pause (earlier : List Use) (h : ∀ e, (r.after earlier).next.1 ≠ .found e) :
    BeginsRound r (earlier ++ [.lookup])

theorem BeginsRound.tried (h : BeginsRound r uses) (hn : r.tried = 0) :
    (r.after uses).tried = 0 := by
  cases h with
  | new => exact hn
  | report earlier e =>
    rw [after_append]
    rfl
  | pause earlier h =>
    have hle : (r.after earlier).endpoints.length ≤ (r.after earlier).tried := by
      by_contra hlt
      obtain ⟨e, -, he⟩ := next_of_lt (Nat.lt_of_not_le hlt)
      exact h e (congrArg Prod.fst he)
    rw [after_append, after_cons, after_nil, use, next_of_le hle]

/-- Nothing has happened yet, or a report has just come. -/
inductive EndsInReport : List Use → Prop where
  | new : EndsInReport []
  | report (earlier : List Use) (e : Endpoint) : EndsInReport (earlier ++ [.report e])

/-- Since the last report, the schedule is a new one. -/
theorem EndsInReport.backoff (h : EndsInReport uses) (hb : r.backoff = r.backoff.reset) :
    (r.after uses).backoff = r.backoff := by
  cases h with
  | new => rfl
  | report earlier e =>
    calc (r.after (earlier ++ [.report e])).backoff
        = (r.after earlier).backoff.reset := by rw [after_append]; rfl
      _ = r.backoff.reset := reset_backoff r earlier
      _ = r.backoff := hb.symm

end Uses

/-- A list in which one endpoint comes twice, with one pause allowed. -/
def threeServices : ClientOptions where
  service := ["amqp://a", "amqps://b:6000", "amqp://a"]
  retry := { maxAttempts := some 1 }

end Rotation

end PubSub
