import PubSub.Proofs.Confirms
import PubSub.Proofs.Sources

/-! # Where promises come from

Every call of the application gives a new promise and posts one signal with it.
So a promise tells the call that it came from, and the signal of the call is
handled at most once.
-/

namespace PubSub

def Move.taken {ℓ : Type} : Move ℓ → List Signal
  | take x => [x]
  | _ => []

def handled {ℓ : Type} (past : List (Move ℓ)) : List Signal := past.flatMap Move.taken

theorem handled_take {ℓ : Type} (past : List (Move ℓ)) (x : Signal) :
    handled (past ++ [.take x]) = handled past ++ [x] := by
  simp [handled, Move.taken]

theorem handled_of_ne_take {ℓ : Type} (past : List (Move ℓ)) {m : Move ℓ}
    (hm : ∀ x, m ≠ .take x) : handled (past ++ [m]) = handled past := by
  cases m with
  | take x => exact absurd rfl (hm x)
  | _ => simp [handled, Move.taken]

def Called {ℓ : Type} (past : List (Move ℓ)) (x : Signal) : Prop :=
  ∃ seen call p, .call seen call p ∈ past ∧ x = call.signal p

namespace System

variable {ℓ : Type} {s s' : System ℓ} {past : List (Move ℓ)}

/-- What calls gave promises for, in the order of handling. -/
def posted (past : List (Move ℓ)) (s : System ℓ) : List Signal :=
  handled past ++ s.client.mailbox.waiting

/-- Every promise is from one call, and its signal is handled once. -/
structure Given (past : List (Move ℓ)) (s : System ℓ) : Prop where
  bounded : ∀ seen call p, .call seen call p ∈ past → p < s.client.promises.length
  unique : ∀ seen seen' call call' p, .call seen call p ∈ past → .call seen' call' p ∈ past →
    call = call'
  called : ∀ x ∈ s.posted past, x.promises = [] ∨ Called past x
  complete : ∀ x, Called past x → x ∈ s.posted past
  once : ((s.posted past).flatMap Signal.promises).Nodup

theorem posted_step {m : Move ℓ} (h : s.step m = some s') (hm : ∀ x, m ≠ .take x) :
    s'.posted (past ++ [m]) =
      s.posted past ++ (s.brought m ++ m.performed.flatMap Effect.posted) := by
  rw [posted, posted, handled_of_ne_take past hm, waiting_step h hm]
  simp

theorem posted_take {x : Signal} (h : s.step (.take x) = some s') :
    s'.posted (past ++ [.take x]) = s.posted past := by
  obtain ⟨-, rest, hw, rfl⟩ := step_take h
  simp [posted, handled_take, begin, hw]

namespace Given

theorem new (id : String) (threshold : Nat) : Given [] (System.new id threshold : System ℓ) where
  bounded := by simp
  unique := by simp
  called := by simp [posted, handled, System.new, Client.new, Mailbox.empty]
  complete := by simp [Called]
  once := by simp [posted, handled, System.new, Client.new, Mailbox.empty]

theorem lt_of_mem (h : Given past s) {p : PromiseId}
    (hp : p ∈ (s.posted past).flatMap Signal.promises) : p < s.client.promises.length := by
  obtain ⟨x, hx, hp⟩ := List.mem_flatMap.mp hp
  rcases h.called x hx with hnone | ⟨seen, call, q, hcall, rfl⟩
  · simp [hnone] at hp
  · rw [call.promises_signal, List.mem_singleton] at hp
    exact hp ▸ h.bounded seen call q hcall

theorem eq_of_mem (h : Given past s) {x y : Signal} {p : PromiseId} (hx : x ∈ s.posted past)
    (hy : y ∈ s.posted past) (hpx : p ∈ x.promises) (hpy : p ∈ y.promises) : x = y := by
  rcases h.called x hx with hnone | ⟨seen, call, q, hq, rfl⟩
  · simp [hnone] at hpx
  rcases h.called y hy with hnone | ⟨seen', call', q', hq', rfl⟩
  · simp [hnone] at hpy
  rw [call.promises_signal, List.mem_singleton] at hpx
  rw [call'.promises_signal, List.mem_singleton] at hpy
  subst hpx hpy
  rw [h.unique _ _ _ _ _ hq hq']

theorem call (h : Given past s) {seen : ClientState} {call : Call} {p : PromiseId}
    (hs : s.step (.call seen call p) = some s') : Given (past ++ [.call seen call p]) s' := by
  obtain ⟨hle, hlen⟩ := length_step hs
  obtain ⟨hnew, hlt⟩ := hlen _ _ _ rfl
  have hposted : s'.posted (past ++ [.call seen call p]) = s.posted past ++ [call.signal p] :=
    posted_step hs (by simp)
  have hmem {seen' : ClientState} {call' : Call} {q : PromiseId}
      (hq : .call seen' call' q ∈ past ++ [.call seen call p]) :
      .call seen' call' q ∈ past ∨ call' = call ∧ q = p := by
    rw [List.mem_append, List.mem_singleton] at hq
    refine hq.imp id fun he => ?_
    injection he with _ hcall hq
    exact ⟨hcall, hq⟩
  constructor
  case bounded =>
    intro seen' call' q hq
    rcases hmem hq with hq | ⟨-, rfl⟩
    · exact (h.bounded seen' call' q hq).trans_le hle
    · exact hlt
  case unique =>
    intro seen₁ seen₂ call₁ call₂ q h₁ h₂
    have hold {seen' : ClientState} {call' : Call} (hq : .call seen' call' q ∈ past) : q ≠ p := by
      rintro rfl
      exact absurd (h.bounded _ _ _ hq) (Nat.not_lt.mpr hnew.ge)
    rcases hmem h₁ with h₁ | ⟨he₁, hq₁⟩ <;> rcases hmem h₂ with h₂ | ⟨he₂, hq₂⟩
    · exact h.unique _ _ _ _ q h₁ h₂
    · exact absurd hq₂ (hold h₁)
    · exact absurd hq₁ (hold h₂)
    · exact he₁.trans he₂.symm
  case called =>
    intro x hx
    rw [hposted, List.mem_append, List.mem_singleton] at hx
    rcases hx with hx | rfl
    · refine (h.called x hx).imp id ?_
      rintro ⟨seen', call', q, hq, rfl⟩
      exact ⟨seen', call', q, List.mem_append_left _ hq, rfl⟩
    · exact .inr ⟨seen, call, p, List.mem_append_right _ (List.mem_singleton_self _), rfl⟩
  case complete =>
    rintro x ⟨seen', call', q, hq, rfl⟩
    rw [hposted]
    rcases hmem hq with hq | ⟨rfl, rfl⟩
    · exact List.mem_append_left _ (h.complete _ ⟨seen', call', q, hq, rfl⟩)
    · exact List.mem_append_right _ (List.mem_singleton_self _)
  case once =>
    rw [hposted, List.flatMap_append, List.flatMap_singleton, call.promises_signal,
      List.nodup_append]
    refine ⟨h.once, by simp, ?_⟩
    rintro a ha b hb rfl
    obtain rfl := List.mem_singleton.mp hb
    exact absurd (h.lt_of_mem ha) (Nat.not_lt.mpr hnew.ge)

theorem move (hc : s.Coherent past) (h : Given past s) {m : Move ℓ} (hs : s.step m = some s')
    (hm : ∀ x, m ≠ .take x) (hcall : ∀ seen call p, m ≠ .call seen call p) :
    Given (past ++ [m]) s' := by
  have hposted : s'.posted (past ++ [m]) = _ := posted_step hs hm
  have hnone (x : Signal) (hx : x ∈ s.brought m ++ m.performed.flatMap Effect.posted) :
      x.promises = [] := by
    refine (promises_step hc hs hx).resolve_right ?_
    rintro ⟨seen, call, q, he, -⟩
    exact hcall seen call q he
  have hmem {seen : ClientState} {call : Call} {q : PromiseId}
      (hq : .call seen call q ∈ past ++ [m]) : .call seen call q ∈ past := by
    rw [List.mem_append, List.mem_singleton] at hq
    exact hq.resolve_right (hcall seen call q).symm
  refine ⟨fun seen call q hq => (h.bounded seen call q (hmem hq)).trans_le (length_step hs).1,
    fun _ _ _ _ q h₁ h₂ => h.unique _ _ _ _ q (hmem h₁) (hmem h₂), fun x hx => ?_, ?_, ?_⟩
  · rw [hposted, List.mem_append] at hx
    rcases hx with hx | hx
    · refine (h.called x hx).imp id ?_
      rintro ⟨seen, call, q, hq, rfl⟩
      exact ⟨seen, call, q, List.mem_append_left _ hq, rfl⟩
    · exact .inl (hnone x hx)
  · rintro x ⟨seen, call, q, hq, rfl⟩
    rw [hposted]
    exact List.mem_append_left _ (h.complete _ ⟨seen, call, q, hmem hq, rfl⟩)
  · rw [hposted, List.flatMap_append, List.flatMap_eq_nil_iff.mpr hnone, List.append_nil]
    exact h.once

theorem take (h : Given past s) {x : Signal} (hs : s.step (.take x) = some s') :
    Given (past ++ [.take x]) s' := by
  have hposted : s'.posted (past ++ [.take x]) = s.posted past := posted_take hs
  have hmem {seen : ClientState} {call : Call} {q : PromiseId}
      (hq : .call seen call q ∈ past ++ [.take x]) : .call seen call q ∈ past := by simpa using hq
  refine ⟨fun seen call q hq => (h.bounded seen call q (hmem hq)).trans_le (length_step hs).1,
    fun _ _ _ _ q h₁ h₂ => h.unique _ _ _ _ q (hmem h₁) (hmem h₂), fun y hy => ?_, ?_, ?_⟩
  · rw [hposted] at hy
    refine (h.called y hy).imp id ?_
    rintro ⟨seen, call, q, hq, rfl⟩
    exact ⟨seen, call, q, List.mem_append_left _ hq, rfl⟩
  · rintro y ⟨seen, call, q, hq, rfl⟩
    rw [hposted]
    exact h.complete _ ⟨seen, call, q, hmem hq, rfl⟩
  · rw [hposted]
    exact h.once

end Given

end System

namespace Reached

variable {ℓ : Type} {s : System ℓ} {past : List (Move ℓ)}

theorem given (h : Reached past s) : s.Given past := by
  refine h.induction (fun id threshold => .new id threshold) ?_
  intro past s m s' hr ih hs
  cases m with
  | take x => exact ih.take hs
  | call seen call p => exact ih.call hs
  | _ => exact ih.move hr.coherent hs (by simp) (by simp)

end Reached

end PubSub
