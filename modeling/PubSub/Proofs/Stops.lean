import PubSub.Proofs.Starts

/-! # What a stop overrides

A start that was handled is pending until the client settles it. So a stop that
is handled by a client that is not stopped fails every start before it that is
not over, and nothing but a later start brings the client back.
-/

namespace PubSub

namespace System

variable {ℓ : Type} {s s' : System ℓ} {past : List (Move ℓ)} {p : PromiseId}

def Started (past : List (Move ℓ)) (p : PromiseId) : Prop := .take (.start (some p)) ∈ past

/-- The pending starts are those that were handled and are not over. -/
structure StartsKnown (past : List (Move ℓ)) (s : System ℓ) : Prop where
  started : ∀ p ∈ s.client.core.pendingStarts, Started past p
  pending : ∀ p, Started past p → p ∈ s.client.core.pendingStarts ∨
    p ∈ s.agenda.flatMap Effect.settled ∨ 0 < settlements past p

namespace StartsKnown

theorem new (id : String) (threshold : Nat) :
    StartsKnown [] (System.new id threshold : System ℓ) where
  started := by simp [System.new, Client.new]
  pending := by simp [Started]

theorem move (h : StartsKnown past s) {m : Move ℓ} (hs : s.step m = some s')
    (hm : ∀ x, m ≠ .take x) : StartsKnown (past ++ [m]) s' := by
  have hstarted (p : PromiseId) : Started (past ++ [m]) p ↔ Started past p := by
    simp only [Started, List.mem_append, List.mem_singleton]
    exact or_iff_left fun he => hm _ he.symm
  constructor
  · intro p hp
    rw [core_step hs hm] at hp
    exact (hstarted p).mpr (h.started p hp)
  · intro p hp
    rw [core_step hs hm, settlements_append]
    rcases h.pending p ((hstarted p).mp hp) with hp | hp | hp
    · exact .inl hp
    · rw [agenda_step hs hm, List.flatMap_append, List.mem_append] at hp
      refine .inr (hp.symm.imp id fun hp => ?_)
      exact Nat.lt_of_lt_of_le (List.count_pos_iff.mpr hp) (Nat.le_add_left ..)
    · exact .inr (.inr (Nat.lt_of_lt_of_le hp (Nat.le_add_right ..)))

theorem take (hc : s.Coherent past) (h : StartsKnown past s) {x : Signal}
    (hs : s.step (.take x) = some s') : StartsKnown (past ++ [.take x]) s' := by
  obtain ⟨hd, hown⟩ := hc.beside_take hs
  obtain ⟨ha, rest, -, rfl⟩ := step_take hs
  have hhandle := hc.sound.starts_handle hd fun hl => (hown hl).1
  have hstarted (p : PromiseId) :
      Started (past ++ [.take x]) p ↔ Started past p ∨ p ∈ x.starts := by
    simp only [Started, List.mem_append, List.mem_singleton]
    refine or_congr_right ?_
    cases x with
    | start q => cases q <;> simp [Signal.starts]
    | _ => simp [Signal.starts]
  constructor
  · intro p hp
    rw [hstarted]
    rcases hhandle with he | ⟨he, -⟩
    · have hp : p ∈ s.client.core.pendingStarts ++ x.starts := he ▸ hp
      exact (List.mem_append.mp hp).imp (h.started p) id
    · have hp : p ∈ [] := he ▸ hp
      cases hp
  · intro p hp
    rw [settlements_append]
    have hold : p ∈ s.client.core.pendingStarts ++ x.starts ∨ 0 < settlements past p := by
      rcases (hstarted p).mp hp with hp | hp
      · rcases h.pending p hp with hp | hp | hp
        · exact .inl (List.mem_append_left _ hp)
        · simp [ha] at hp
        · exact .inr hp
      · exact .inl (List.mem_append_right _ hp)
    rcases hold with hp | hp
    · rcases hhandle with he | ⟨-, result, hr⟩
      · exact .inl (he ▸ hp)
      · exact .inr (.inl (List.mem_flatMap.mpr ⟨_, hr p hp, List.mem_singleton_self p⟩))
    · exact .inr (.inr hp)

end StartsKnown

/-- A promise has been completed, or it is going to be completed with an error. -/
def Failing (past : List (Move ℓ)) (s : System ℓ) (p : PromiseId) : Prop :=
  0 < settlements past p ∨ ∃ e, .settle p (.error e) ∈ s.agenda

/-- A promise that fails is not going to succeed. -/
theorem Failing.step (hc : s.Conserved past) (h : s.Failing past p) {m : Move ℓ}
    (hs : s.step m = some s') :
    m ≠ .perform (.settle p (.ok ())) ∧ s'.Failing (past ++ [m]) p := by
  by_cases hm : ∃ x, m = .take x
  · obtain ⟨x, rfl⟩ := hm
    obtain ⟨ha, -⟩ := step_take hs
    refine ⟨by simp, h.imp (fun hp => ?_) fun ⟨e, he⟩ => ?_⟩
    · rw [settlements_append]
      exact Nat.lt_of_lt_of_le hp (Nat.le_add_right ..)
    · rw [ha] at he
      cases he
  · have ha := agenda_step hs fun x hx => hm ⟨x, hx⟩
    constructor
    · rintro rfl
      -- The effect would be one of two that complete the promise.
      have howed : (s.agenda.flatMap Effect.promises).count p =
          1 + (s'.agenda.flatMap Effect.promises).count p := by
        rw [ha, List.flatMap_append, List.count_append]
        simp [Move.performed, Effect.promises, Effect.settled]
      obtain ⟨hz, hone, -⟩ := hc.isOpen (p := p) (by rw [owed]; omega)
      rcases h with hp | ⟨e, he⟩
      · omega
      · rw [ha, List.mem_append] at he
        have he : .settle p (.error e) ∈ s'.agenda := he.resolve_left (by simp [Move.performed])
        have hpos : 0 < (s'.agenda.flatMap Effect.promises).count p :=
          List.count_pos_iff.mpr (List.mem_flatMap.mpr ⟨_, he, List.mem_singleton_self p⟩)
        rw [owed] at hone
        omega
    · rw [Failing, settlements_append]
      rcases h with hp | ⟨e, he⟩
      · exact .inl (Nat.lt_of_lt_of_le hp (Nat.le_add_right ..))
      · rw [ha, List.mem_append] at he
        refine he.imp (fun he => ?_) fun he => ⟨e, he⟩
        have hp : p ∈ m.settled := List.mem_flatMap.mpr ⟨_, he, List.mem_singleton_self p⟩
        exact Nat.lt_of_lt_of_le (List.count_pos_iff.mpr hp) (Nat.le_add_left ..)

theorem Failing.run (hr : Reached past s) (h : s.Failing past p) {more : List (Move ℓ)}
    (hs : s.run more = some s') : .perform (.settle p (.ok ())) ∉ more := by
  have hall : Reached (past ++ more) s' ∧ s'.Failing (past ++ more) p ∧
      .perform (.settle p (.ok ())) ∉ more := by
    refine run_induction (P := fun ms t => Reached (past ++ ms) t ∧ t.Failing (past ++ ms) p ∧
      .perform (.settle p (.ok ())) ∉ ms) ⟨by simpa using hr, by simpa using h, by simp⟩ ?_ hs
    intro ms t m t' _ ⟨hr, hf, hn⟩ ht
    obtain ⟨hne, hf'⟩ := hf.step hr.conserved ht
    rw [← List.append_assoc]
    refine ⟨hr.step ht, hf', ?_⟩
    rw [List.mem_append, List.mem_singleton]
    exact fun hm => hm.elim hn fun he => hne he.symm
  exact hall.2.2

theorem quiet_step (hr : Reached past s) (h : s.client.core.Quiet) {m : Move ℓ}
    (hs : s.step m = some s') (hm : ∀ q, m ≠ .take (.start (some q))) : s'.client.core.Quiet := by
  cases m with
  | take x =>
    obtain ⟨hd, hown⟩ := hr.coherent.beside_take hs
    rw [core_take hs]
    refine hr.coherent.sound.quiet_handle hd (fun hl => (hown hl).1) h ?_
    cases x with
    | start q =>
      cases q with
      | none => rfl
      | some q => exact absurd rfl (hm q)
    | _ => rfl
  | _ =>
    rw [core_step hs (by simp)]
    exact h

theorem quiet_run (hr : Reached past s) (h : s.client.core.Quiet) {more : List (Move ℓ)}
    (hs : s.run more = some s') (hm : ∀ q, .take (.start (some q)) ∉ more) :
    s'.client.core.Quiet := by
  have hall : Reached (past ++ more) s' ∧
      ((∀ q, .take (.start (some q)) ∉ more) → s'.client.core.Quiet) := by
    refine run_induction (P := fun ms t => Reached (past ++ ms) t ∧
      ((∀ q, .take (.start (some q)) ∉ ms) → t.client.core.Quiet)) ⟨by simpa using hr, fun _ => h⟩
      ?_ hs
    intro ms t m t' _ ⟨hr, hq⟩ ht
    rw [← List.append_assoc]
    refine ⟨hr.step ht, fun hn => ?_⟩
    refine quiet_step hr (hq fun q hm => hn q (List.mem_append_left _ hm)) ht fun q he => ?_
    exact hn q (List.mem_append_right _ (List.mem_singleton.mpr he.symm))
  exact hall.2 hm

/-- What the turn of a stop does to the starts before it, and to the client. -/
structure Overrides (past : List (Move ℓ)) (s s' : System ℓ) : Prop where
  /-- Every start that was handled and is not over fails in the turn. -/
  fails : ∀ p q, Started past p → s.client.promises[p]? = some q → q.isDone = false →
    ∃ e, .settle p (.error e) ∈ s'.agenda
  never : ∀ p q, Started past p → s.client.promises[p]? = some q → q.isDone = false →
    ∀ more t, s'.run more = some t → .perform (.settle p (.ok ())) ∉ more
  /-- The client stays on the way to its end until a later start is handled. -/
  stays : ∀ more t, s'.run more = some t → (∀ q, .take (.start (some q)) ∉ more) →
    t.client.core.phase.isStopped

end System

section Reached

variable {ℓ : Type} {s s' : System ℓ} {past : List (Move ℓ)} {x : Signal}

theorem Reached.startsKnown (h : Reached past s) : s.StartsKnown past := by
  exact h.turn_induction (fun id threshold => .new id threshold) (fun _ ih hs hm => ih.move hs hm)
    fun hr ih hs => ih.take hr.coherent hs

/-- A start that was handled and is not over is pending between two turns. -/
theorem Reached.pending_of_started (h : Reached past s) (ha : s.agenda = []) {p : PromiseId}
    (hp : System.Started past p) {q : Promise Unit ℓ} (hq : s.client.promises[p]? = some q)
    (ho : q.isDone = false) : p ∈ s.client.core.pendingStarts := by
  have hd := h.conserved.done p q hq
  have ht := h.conserved.total p
  rw [ho] at hd
  rcases h.startsKnown.pending p hp with hp | hp | hp
  · exact hp
  · simp [ha] at hp
  · have hle : settlements past p ≤ 1 := by split at ht <;> omega
    exact absurd (hd.mpr (by omega)) (by simp)

/-- A stop overrides all starts before it, exactly if it does not come between the end of a
session and the start that is resumed after it. -/
theorem Reached.stop_overrides_iff (h : Reached past s) (hx : x.isStop)
    (hs : s.step (.take x) = some s') : s.Overrides past s' ↔
      ¬ (s.client.core.phase = .stopped ∧ s.client.core.pendingStarts ≠ []) := by
  have hr := h.step hs
  obtain ⟨hd, -⟩ := h.coherent.beside_take hs
  obtain ⟨ha, rest, -, rfl⟩ := System.step_take hs
  constructor
  · rintro ho ⟨hp, hne⟩
    obtain ⟨p, hmem⟩ := List.exists_mem_of_ne_nil _ hne
    have hpos : 0 < s.owed p := by
      have hheld : p ∈ s.held := by simp [System.held, Core.held, hmem]
      exact Nat.lt_of_lt_of_le (List.count_pos_iff.mpr hheld) (Nat.le_add_right ..)
    obtain ⟨-, -, q, hq, hopen⟩ := h.conserved.isOpen hpos
    obtain ⟨e, he⟩ := ho.fails p q (h.startsKnown.started p hmem) hq hopen
    have he : .settle p (.error e) ∈ (s.client.core.handle x).effects := he
    simp [Core.effects_stop_of_stopped hp hx] at he
  · intro hn
    have hquiet : (s.client.core.handle x).core.Quiet :=
      h.coherent.sound.quiet_of_stop hd hx fun hp => by simpa [hp] using hn
    have hfails : ∀ p q, System.Started past p → s.client.promises[p]? = some q →
        q.isDone = false → ∃ e, .settle p (.error e) ∈ (s.client.core.handle x).effects := by
      intro p q hp hq ho
      have hmem := h.pending_of_started ha hp hq ho
      have hne : s.client.core.phase ≠ .stopped :=
        fun hs => hn ⟨hs, List.ne_nil_of_mem hmem⟩
      obtain ⟨-, e, he⟩ := h.coherent.sound.stop_handle hd hx hne
      exact ⟨e, he p hmem⟩
    refine ⟨hfails, ?_, ?_⟩
    · intro p q hp hq ho more t ht
      exact System.Failing.run hr (.inr (hfails p q hp hq ho)) ht
    · intro more t ht hm
      exact (System.quiet_run hr hquiet ht hm).phase

/-- A run in which a stop waits to be handled while the client looks for an endpoint. -/
def stopWhileStarting : List (Move Unit) :=
  [.call .stopped .start 0, .take (.start (some 0)), .perform (.publish .starting),
    .perform (.notify .starting), .perform (.request .lookup), .call .starting .stop 1]

theorem Reached.stop_overrides_stopWhileStarting : ∃ s s', Reached stopWhileStarting s ∧
    s.step (.take (.stop 1)) = some s' ∧ s.client.core.pendingStarts = [0] ∧
      s.Overrides stopWhileStarting s' := by
  have hr : ∃ s, (System.new "" 1).run stopWhileStarting = some s ∧
      s.client.core.phase = .startingLookup ∧ s.client.core.pendingStarts = [0] ∧
        ∃ s', s.step (.take (.stop 1)) = some s' := ⟨_, rfl, rfl, rfl, _, rfl⟩
  obtain ⟨s, hs, hp, hstarts, s', hs'⟩ := hr
  have h : Reached stopWhileStarting s := ⟨"", 1, hs⟩
  exact ⟨s, s', h, hs', hstarts, (Reached.stop_overrides_iff h rfl hs').mpr (by simp [hp])⟩

/-- A run in which a start comes while the client stops, and a second stop comes when the client
has stopped and is about to resume the start. -/
def stopBeforeResume : List (Move Unit) :=
  stopWhileStarting ++ ([.take (.stop 1), .perform (.publish .stopping),
    .perform (.settle 0 (.error .clientStopped)), .call .stopping .start 2,
    .take (.start (some 2)), .perform (.publish .stopping), .answerLookup (.error .cancelled),
    .take (.endpointAnswered (.error .cancelled)), .perform (.publish .stopping),
    .perform .takeDrain, .perform .flush, .finish 1 (.ok ()), .take .flushed,
    .perform (.publish .stopped), .call .stopped .stop 3, .perform (.settle 1 (.ok ())),
    .perform (.notify (.stopped none)), .perform .release, .perform (.post (.start none))] :
    List (Move Unit))

set_option maxRecDepth 8000 in
/-- The second stop is handled and succeeds, and then the client starts again. -/
theorem Reached.stop_not_overriding : ∃ s s', Reached stopBeforeResume s ∧
    s.step (.take (.stop 3)) = some s' ∧ ¬ s.Overrides stopBeforeResume s' := by
  have hr : ∃ s, (System.new "" 1).run stopBeforeResume = some s ∧
      ∃ s', s.step (.take (.stop 3)) = some s' ∧
        ∃ t, s'.run [.perform (.publish .stopped), .perform (.settle 3 (.ok ())),
          .take (.start none)] = some t ∧ t.client.core.phase = .startingLookup :=
    ⟨_, rfl, _, rfl, _, rfl, rfl⟩
  obtain ⟨s, hs, s', hs', t, ht, hp⟩ := hr
  refine ⟨s, s', ⟨"", 1, hs⟩, hs', fun ho => ?_⟩
  have hstays := ho.stays _ t ht (by simp)
  rw [hp] at hstays
  cases hstays

end Reached

end PubSub
