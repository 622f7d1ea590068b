import PubSub.Proofs.Handling
import PubSub.Proofs.Reach

/-! # What happened before

The core of a client is determined by the signals that it has handled. So it
can be said of a run, in terms of the moves alone, which core a turn began with
and whether there was a turn of some kind before.
-/

namespace PubSub

variable {ℓ : Type}

def Core.after (past : List (Move ℓ)) : Core :=
  past.foldl (fun c m => match m with | .take x => (c.handle x).core | _ => c) {}

theorem Core.after_take (past : List (Move ℓ)) (x : Signal) :
    after (past ++ [.take x]) = ((after past).handle x).core := by
  simp [after]

theorem Core.after_of_ne_take (past : List (Move ℓ)) {m : Move ℓ} (hm : ∀ x, m ≠ .take x) :
    after (past ++ [m]) = after past := by
  cases m with
  | take x => exact absurd rfl (hm x)
  | _ => simp [after]

/-- The turns of moves that begin with a core: the core at the beginning of each, and its
signal. -/
def turnsFrom (c : Core) : List (Move ℓ) → List (Core × Signal)
  | [] => []
  | .take x :: moves => (c, x) :: turnsFrom (c.handle x).core moves
  | _ :: moves => turnsFrom c moves

def turns (past : List (Move ℓ)) : List (Core × Signal) := turnsFrom {} past

theorem turnsFrom_append (c : Core) (moves more : List (Move ℓ)) :
    turnsFrom c (moves ++ more) = turnsFrom c moves ++ turnsFrom
      (moves.foldl (fun c m => match m with | .take x => (c.handle x).core | _ => c) c) more := by
  induction moves generalizing c with
  | nil => rfl
  | cons m moves ih => cases m <;> simp [turnsFrom, ih]

theorem turns_take (past : List (Move ℓ)) (x : Signal) :
    turns (past ++ [.take x]) = turns past ++ [(Core.after past, x)] :=
  turnsFrom_append ..

theorem turns_of_ne_take (past : List (Move ℓ)) {m : Move ℓ} (hm : ∀ x, m ≠ .take x) :
    turns (past ++ [m]) = turns past := by
  rw [turns, turnsFrom_append]
  cases m with
  | take x => exact absurd rfl (hm x)
  | _ => exact List.append_nil _

theorem mem_turns {past : List (Move ℓ)} {c : Core} {x : Signal} : (c, x) ∈ turns past ↔
    ∃ before later, past = before ++ .take x :: later ∧ c = Core.after before := by
  constructor
  · intro h
    induction past using List.reverseRecOn with
    | nil => cases h
    | append_singleton past m ih =>
      have hold (h : (c, x) ∈ turns past) :
          ∃ before later, past ++ [m] = before ++ .take x :: later ∧ c = Core.after before := by
        obtain ⟨before, later, he, hc⟩ := ih h
        exact ⟨before, later ++ [m], by simp [he], hc⟩
      by_cases hm : ∀ y, m ≠ .take y
      · exact hold (turns_of_ne_take past hm ▸ h)
      · obtain ⟨y, rfl⟩ : ∃ y, m = .take y := by simpa using hm
        rw [turns_take, List.mem_append, List.mem_singleton] at h
        rcases h with h | h
        · exact hold h
        · obtain ⟨rfl, rfl⟩ := Prod.mk.inj h
          exact ⟨past, [], rfl, rfl⟩
  · rintro ⟨before, later, rfl, rfl⟩
    rw [← List.singleton_append, ← List.append_assoc, turns, turnsFrom_append]
    exact List.mem_append_left _ (by rw [← turns, turns_take]; simp)

/-- There was a turn of some kind, told by the core at its beginning and the signal. -/
def During (past : List (Move ℓ)) (kind : Core → Signal → Prop) : Prop :=
  ∃ earlier x later, past = earlier ++ .take x :: later ∧ kind (Core.after earlier) x

namespace During

variable {past more : List (Move ℓ)} {kind : Core → Signal → Prop}

theorem append (h : During past kind) : During (past ++ more) kind := by
  obtain ⟨earlier, x, later, rfl, hk⟩ := h
  exact ⟨earlier, x, later ++ more, by simp, hk⟩

theorem last {x : Signal} (h : kind (Core.after past) x) : During (past ++ [.take x]) kind :=
  ⟨past, x, [], rfl, h⟩

theorem of_nil (h : During ([] : List (Move ℓ)) kind) : False := by
  obtain ⟨earlier, x, later, he, -⟩ := h
  simp at he

theorem of_append_singleton {m : Move ℓ} (h : During (past ++ [m]) kind) :
    During past kind ∨ ∃ x, m = .take x ∧ kind (Core.after past) x := by
  obtain ⟨earlier, x, later, he, hk⟩ := h
  rcases List.eq_nil_or_concat later with rfl | ⟨later, m', rfl⟩
  · obtain ⟨rfl, he⟩ := List.append_inj' he rfl
    exact .inr ⟨x, by simpa using he, hk⟩
  · rw [List.concat_eq_append, ← List.cons_append, ← List.append_assoc] at he
    obtain ⟨rfl, -⟩ := List.append_inj' he rfl
    exact .inl ⟨earlier, x, later, rfl, hk⟩

theorem append_take {x : Signal} : During (past ++ [.take x]) kind ↔
    During past kind ∨ kind (Core.after past) x := by
  constructor
  · intro h
    refine h.of_append_singleton.imp id ?_
    rintro ⟨y, hy, hk⟩
    injection hy with hy
    rwa [hy]
  · rintro (h | h)
    · exact h.append
    · exact last h

theorem of_append {m : Move ℓ} (h : During (past ++ [m]) kind) (hm : ∀ x, m ≠ .take x) :
    During past kind := by
  rcases h.of_append_singleton with h | ⟨x, rfl, -⟩
  · exact h
  · exact absurd rfl (hm x)

end During

theorem mem_performed {past : List (Move ℓ)} {e : Effect} :
    e ∈ past.flatMap Move.performed ↔ .perform e ∈ past := by
  rw [List.mem_flatMap]
  constructor
  · rintro ⟨m, hm, he⟩
    cases m with
    | perform e' =>
      obtain rfl := List.mem_singleton.mp he
      exact hm
    | _ => cases he
  · intro hm
    exact ⟨_, hm, List.mem_singleton_self _⟩

/-- The effects of the turns so far, with those that are still to be performed. -/
def System.issued (past : List (Move ℓ)) (s : System ℓ) : List Effect :=
  past.flatMap Move.performed ++ s.agenda

theorem System.issued_step {s s' : System ℓ} {past : List (Move ℓ)} {m : Move ℓ}
    (h : s.step m = some s') (hm : ∀ x, m ≠ .take x) :
    s'.issued (past ++ [m]) = s.issued past := by
  rw [issued, issued, agenda_step h hm]
  simp

theorem System.issued_take {s s' : System ℓ} {past : List (Move ℓ)} {x : Signal}
    (h : s.step (.take x) = some s') :
    s'.issued (past ++ [.take x]) = s.issued past ++ (s.client.core.handle x).effects := by
  obtain ⟨ha, rest, -, rfl⟩ := step_take h
  simp [issued, ha, begin, Move.performed]

namespace Reached

variable {s : System ℓ} {past before later : List (Move ℓ)}

theorem of_append (h : Reached (before ++ later) s) :
    ∃ u, Reached before u ∧ u.run later = some s := by
  obtain ⟨id, threshold, h⟩ := h
  rw [System.run_append] at h
  obtain ⟨u, hu, hr⟩ := Option.bind_eq_some_iff.mp h
  exact ⟨u, ⟨id, threshold, hu⟩, hr⟩

theorem of_append_cons {m : Move ℓ} (h : Reached (before ++ m :: later) s) :
    ∃ u v, Reached before u ∧ u.step m = some v := by
  obtain ⟨u, hu, hrun⟩ := h.of_append
  rw [System.run_cons] at hrun
  obtain ⟨v, hs, -⟩ := Option.bind_eq_some_iff.mp hrun
  exact ⟨u, v, hu, hs⟩

theorem core_eq (h : Reached past s) : s.client.core = Core.after past := by
  refine h.turn_induction (P := fun past s => s.client.core = Core.after past)
    (fun id threshold => rfl) ?_ ?_
  · intro past s m s' _ ih hs hm
    rw [Core.after_of_ne_take _ hm, System.core_step hs hm, ih]
  · intro past s x s' _ ih hs
    rw [Core.after_take, System.core_take hs, ih]

theorem issued_turns (h : Reached past s) :
    s.issued past = (turns past).flatMap fun t => (t.1.handle t.2).effects := by
  refine h.turn_induction (P := fun past s => s.issued past =
    (turns past).flatMap fun t => (t.1.handle t.2).effects) (fun _ _ => rfl) ?_ ?_
  · intro past s m s' hr ih hs hm
    rw [System.issued_step hs hm, turns_of_ne_take past hm, ih]
  · intro past s x s' hr ih hs
    rw [System.issued_take hs, turns_take, List.flatMap_append, List.flatMap_singleton, ih,
      hr.core_eq]

/-- What becomes of a signal whose turn begins. -/
theorem handles {s' : System ℓ} {x : Signal} (h : Reached past s)
    (hs : s.step (.take x) = some s') :
    Handles s.client.core (System.beside s x) x := h.coherent.handles hs

theorem of_agenda (h : Reached past s) (ha : s.agenda ≠ []) :
    ∃ earlier x rest u v, past = earlier ++ .take x :: rest ∧ (∀ y, .take y ∉ rest) ∧
      Reached earlier u ∧ u.step (.take x) = some v ∧
      (u.client.core.handle x).effects = rest.flatMap Move.performed ++ s.agenda := by
  refine h.turn_induction (P := fun past s => s.agenda ≠ [] → ∃ earlier x rest u v,
    past = earlier ++ .take x :: rest ∧ (∀ y, .take y ∉ rest) ∧ Reached earlier u ∧
      u.step (.take x) = some v ∧
      (u.client.core.handle x).effects = rest.flatMap Move.performed ++ s.agenda)
    (fun _ _ h => absurd rfl h) ?_ ?_ ha
  · intro past s m s' hr ih hs hm ha
    have hagenda := System.agenda_step hs hm
    obtain ⟨earlier, x, rest, u, v, rfl, hrest, hu, hx, he⟩ :=
      ih (by rw [hagenda]; exact fun h => ha (List.append_eq_nil_iff.mp h).2)
    refine ⟨earlier, x, rest ++ [m], u, v, by simp, ?_, hu, hx, ?_⟩
    · intro y hy
      exact (List.mem_append.mp hy).elim (hrest y) fun hy => hm y (List.mem_singleton.mp hy).symm
    · rw [he, hagenda]
      simp
  · intro past s x s' hr ih hs ha
    refine ⟨past, x, [], s, s', rfl, by simp, hr, hs, ?_⟩
    obtain ⟨-, rest, -, rfl⟩ := System.step_take hs
    rfl

/-- An effect is performed in the turn that it was issued in. -/
theorem of_perform {e : Effect} (h : Reached (before ++ .perform e :: later) s) :
    ∃ earlier x rest more u v, before = earlier ++ .take x :: rest ∧ (∀ y, .take y ∉ rest) ∧
      Reached earlier u ∧ u.step (.take x) = some v ∧
      (u.client.core.handle x).effects = rest.flatMap Move.performed ++ e :: more := by
  obtain ⟨w, w', hw, hs⟩ := h.of_append_cons
  obtain ⟨more, ha, -⟩ := System.step_perform hs
  obtain ⟨earlier, x, rest, u, v, hb, hrest, hu, hx, he⟩ := hw.of_agenda (by simp [ha])
  exact ⟨earlier, x, rest, more, u, v, hb, hrest, hu, hx, he.trans (by rw [ha])⟩

end Reached

end PubSub
