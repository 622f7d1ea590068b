import PubSub.Proofs.Promises
import PubSub.Proofs.Standing

/-! # What becomes of confirmations

The promise of a confirmation stays with its signal until the turn of the
signal settles it. There the delivery is looked up by its number, so what is
acknowledged is the message that the delivery arrived with; only a delivery
that came on a connection which was lost before its opening was acknowledged
is found without being acknowledged.
-/

namespace PubSub

theorem Client.length_perform {ℓ : Type} (c : Client ℓ) (e : Effect) :
    (c.perform e).2.promises.length = c.promises.length := by
  have hsettle (p : PromiseId) (result : Outcome) :
      (c.settle p result).2.promises.length = c.promises.length := by
    unfold settle
    split <;> simp
  cases e with
  | settle p result | finishSend p result => exact hsettle p result
  | _ => rfl

theorem Signal.promises_of_isOwn {x : Signal} (hx : x.isOwn) : x.promises = [] := by
  cases x with
  | start p =>
    cases p with
    | none => rfl
    | some p => cases hx
  | subscriptionsRemade => rfl
  | _ => cases hx

theorem Effect.promises_of_settled {es : List Effect} {p : PromiseId}
    (h : p ∈ es.flatMap settled) : p ∈ es.flatMap promises := by
  obtain ⟨e, he, hp⟩ := List.mem_flatMap.mp h
  exact List.mem_flatMap.mpr ⟨e, he, by rw [e.promises_eq]; exact List.mem_append_left _ hp⟩

namespace Core

variable (c : Core) (id : ConfirmationId) (p : PromiseId)

theorem effects_confirm : (c.handle (.confirm id p)).effects =
    match c.confirmations.find? (·.id = id) with
    | none => [.settle p (.error Turn.confirmationLost)]
    | some e =>
      (if c.isCurrent e.delivery.connection then
        [.request (.confirm e.delivery.connection e.delivery.tag)] else []) ++
      [.settle p (.ok ())] := by
  cases hf : c.confirmations.find? (·.id = id) with
  | none => simp [handle, Turn.handle, Turn.onConfirm, hf]
  | some e =>
    have hcur (confirmations : List TrackedDelivery) :
        { c with confirmations := confirmations }.isCurrent e.delivery.connection =
          c.isCurrent e.delivery.connection := rfl
    simp only [handle, Turn.handle, Turn.onConfirm, Turn.core_begin, hf, Turn.acknowledge,
      Turn.core_update, hcur]
    split <;> simp

theorem settles_confirm : p ∈ (c.handle (.confirm id p)).effects.flatMap Effect.settled := by
  rw [effects_confirm]
  split <;> simp [Effect.settled]

/-- In the turn the promise succeeds only if the message is acknowledged, and it fails once the
connection of the message is not the current one any more. -/
structure Acknowledges (c : Core) (x : Signal) (origin : PendingDelivery) (p : PromiseId) :
    Prop where
  ok : .settle p (.ok ()) ∈ (c.handle x).effects →
    .request (.confirm origin.connection origin.tag) ∈ (c.handle x).effects
  lost : ¬ c.isCurrent origin.connection →
    ∃ text, .settle p (.error (.state text)) ∈ (c.handle x).effects

variable {c id p}

/-- Only a delivery that is tracked without its connection is not acknowledged. -/
theorem acknowledges_iff {origin : PendingDelivery}
    (horigin : ∀ e ∈ c.confirmations, e.id = id → e.delivery = origin) :
    c.Acknowledges (.confirm id p) origin p ↔
      ¬ ((∃ e ∈ c.confirmations, e.id = id) ∧ ¬ c.isCurrent origin.connection) := by
  have heffects := c.effects_confirm id p
  cases hf : c.confirmations.find? (·.id = id) with
  | none =>
    simp only [hf] at heffects
    have hnone : ¬ ∃ e ∈ c.confirmations, e.id = id := by simpa using hf
    refine iff_of_true ⟨fun hok => ?_, fun _ => ?_⟩ fun h => hnone h.1
    · simp [heffects] at hok
    · exact ⟨_, by rw [heffects]; exact List.mem_singleton_self _⟩
  | some e =>
    have he : e ∈ c.confirmations := List.mem_of_find?_eq_some hf
    have hid : e.id = id := by simpa using List.find?_some hf
    obtain rfl := horigin e he hid
    simp only [hf] at heffects
    by_cases hk : c.isCurrent e.delivery.connection
    · refine iff_of_true ⟨fun _ => ?_, fun hn => absurd hk hn⟩ fun h => h.2 hk
      simp [heffects, hk]
    · refine iff_of_false (fun h => ?_) fun h => h ⟨⟨e, he, hid⟩, hk⟩
      have hok := h.ok (by simp [heffects])
      simp [heffects, hk] at hok

end Core

namespace System

variable {ℓ : Type} {s s' : System ℓ} {past : List (Move ℓ)} {d : Delivery} {p : PromiseId}

theorem length_step {m : Move ℓ} (h : s.step m = some s') :
    s.client.promises.length ≤ s'.client.promises.length ∧
      ∀ seen call q, m = .call seen call q → q = s.client.promises.length ∧
        q < s'.client.promises.length := by
  cases step_eq_some.mp h with
  | call _ _ hq => exact ⟨by simp, fun _ _ _ he => by cases he; exact ⟨hq, by simp [hq]⟩⟩
  | listen => exact ⟨by simp, by simp⟩
  | perform => exact ⟨(s.client.length_perform _).ge, by simp⟩
  | _ => exact ⟨Nat.le_refl _, by simp⟩

theorem promises_of_brought {m : Move ℓ} {x : Signal} (hx : x ∈ s.brought m) :
    x.promises = [] ∨ ∃ seen call q, m = .call seen call q ∧ x = call.signal q := by
  cases m with
  | call seen call q => exact .inr ⟨seen, call, q, rfl, List.mem_singleton.mp hx⟩
  | finish i result =>
    obtain ⟨job, -, hsignal⟩ := Option.bind_eq_some_iff.mp (Option.mem_toList.mp hx)
    exact .inl (Completion.promises_of_signal hsignal)
  | answer r result =>
    obtain rfl := List.mem_singleton.mp hx
    exact .inl (by simp)
  | answerLookup | deliver | disconnect =>
    obtain rfl := List.mem_singleton.mp hx
    exact .inl rfl
  | listen | take | perform => cases hx

/-- The signals that a move adds to the mailbox hold no promise but that of a call. -/
theorem promises_step (hc : s.Coherent past) {m : Move ℓ} (h : s.step m = some s') {x : Signal}
    (hx : x ∈ s.brought m ++ m.performed.flatMap Effect.posted) :
    x.promises = [] ∨ ∃ seen call q, m = .call seen call q ∧ x = call.signal q := by
  rcases List.mem_append.mp hx with hx | hx
  · exact promises_of_brought hx
  · exact .inl (Signal.promises_of_isOwn (hc.isOwn_of_performed h hx))

/-- The promise of a confirmation is with no other signal, and not with the core. -/
structure Confirming (s : System ℓ) (d : Delivery) (p : PromiseId) : Prop where
  given : p < s.client.promises.length
  free : p ∉ s.client.core.held
  waiting : ∀ x ∈ s.client.mailbox.waiting, p ∈ x.promises →
    ∃ id, d.confirmation = some id ∧ x = .confirm id p

namespace Confirming

theorem call (hc : s.Coherent past) (hp : s.Conserved past) {seen : ClientState}
    (hs : s.step (.call seen (.confirm d) p) = some s') : s'.Confirming d p := by
  obtain ⟨-, c, hmade, -⟩ := step_call hs
  obtain ⟨id, hid⟩ := Call.confirmation_of_make hmade
  obtain ⟨-, hlen⟩ := length_step hs
  obtain ⟨hnew, hlt⟩ := hlen _ _ _ rfl
  -- A new promise is held nowhere.
  have hz : s.owed p = 0 := by
    have ht := hp.total p
    rw [if_neg (Nat.not_lt.mpr hnew.ge)] at ht
    omega
  have hheld : p ∉ s.held := by
    intro hm
    have hpos := List.count_pos_iff.mpr hm
    rw [owed] at hz
    omega
  rw [held, List.mem_append, not_or] at hheld
  refine ⟨hlt, by rw [core_step hs (by simp)]; exact hheld.2, fun x hx hpx => ?_⟩
  rw [waiting_step hs (by simp), List.append_assoc, List.mem_append] at hx
  rcases hx with hx | hx
  · exact absurd (List.mem_flatMap.mpr ⟨x, hx, hpx⟩) hheld.1
  · rcases promises_step hc hs hx with hnone | ⟨_, call, q, he, rfl⟩
    · simp [hnone] at hpx
    · cases he
      exact ⟨id, hid, by simp [Call.signal, hid]⟩

theorem move (hc : s.Coherent past) (h : s.Confirming d p) {m : Move ℓ} (hs : s.step m = some s')
    (hm : ∀ x, m ≠ .take x) : s'.Confirming d p := by
  obtain ⟨hle, hlen⟩ := length_step hs
  refine ⟨h.given.trans_le hle, by rw [core_step hs hm]; exact h.free, fun x hx hpx => ?_⟩
  rw [waiting_step hs hm, List.append_assoc, List.mem_append] at hx
  rcases hx with hx | hx
  · exact h.waiting x hx hpx
  · rcases promises_step hc hs hx with hnone | ⟨_, call, q, he, rfl⟩
    · simp [hnone] at hpx
    · -- Another call has another promise.
      rw [Call.promises_signal, List.mem_singleton] at hpx
      subst hpx
      exact absurd (hlen _ _ _ he).1 h.given.ne

theorem take (hr : Reached past s) (h : s.Confirming d p) {x : Signal}
    (hs : s.step (.take x) = some s') : s'.Confirming d p ∧
      (p ∈ s'.agenda.flatMap Effect.settled →
        ∃ id, d.confirmation = some id ∧ x = .confirm id p) := by
  have hc := hr.coherent
  obtain ⟨hd, hown⟩ := hc.beside_take hs
  have howed := hc.sound.owed_handle (p := p) hd hown
  obtain ⟨-, rest, hw, rfl⟩ := step_take hs
  rw [List.count_eq_zero.mpr h.free, Nat.zero_add, Turn.owed] at howed
  have hx : p ∈ x.promises → ∃ id, d.confirmation = some id ∧ x = .confirm id p :=
    h.waiting x (hw ▸ List.mem_cons_self ..)
  refine ⟨⟨h.given, ?_, fun y hy => h.waiting y (hw ▸ List.mem_cons_of_mem _ hy)⟩, fun hp => hx ?_⟩
  · rw [← List.count_eq_zero]
    by_cases hp : p ∈ x.promises
    · obtain ⟨id, -, rfl⟩ := hx hp
      have hpos := List.count_pos_iff.mpr (Effect.promises_of_settled
        (s.client.core.settles_confirm id p))
      simp only [Signal.promises, List.count_singleton_self] at howed
      simp only [begin]
      omega
    · rw [List.count_eq_zero.mpr hp] at howed
      simp only [begin]
      omega
  · have hpos := List.count_pos_iff.mpr (Effect.promises_of_settled hp)
    refine List.count_pos_iff.mp ?_
    simp only [begin] at hpos
    omega

end Confirming

end System

section Reached

variable {ℓ : Type} {s s' : System ℓ} {past : List (Move ℓ)} {d : Delivery} {p : PromiseId}

theorem Reached.arrived_of_confirm (h : Reached past s) {seen : ClientState}
    (hs : s.step (.call seen (.confirm d) p) = some s') :
    ∃ id origin, d.confirmation = some id ∧ Arrived past d origin := by
  obtain ⟨hreceived, c, hmade, -⟩ := System.step_call hs
  obtain ⟨id, hid⟩ := Call.confirmation_of_make hmade
  have hmem : d ∈ s.handed := List.mem_append_left _ (by simpa [Call.isOffered] using hreceived)
  obtain ⟨origin, ho⟩ := h.numbered.handed d hmem (by simp [hid])
  exact ⟨id, origin, hid, ho⟩

theorem Reached.confirming (h : Reached past s) {seen : ClientState}
    (hcall : .call seen (.confirm d) p ∈ past) :
    s.Confirming d p ∧ ∃ id origin, d.confirmation = some id ∧ Arrived past d origin := by
  refine h.induction (P := fun past s => .call seen (.confirm d) p ∈ past → s.Confirming d p ∧
    ∃ id origin, d.confirmation = some id ∧ Arrived past d origin) (fun _ _ => by simp) ?_ hcall
  intro past s m s' hr ih hs hm
  rcases List.mem_append.mp hm with hm | hm
  · obtain ⟨hc, id, origin, hid, ho⟩ := ih hm
    refine ⟨?_, id, origin, hid, ho.append⟩
    cases m with
    | take x => exact (hc.take hr hs).1
    | _ => exact hc.move hr.coherent hs (by simp)
  · obtain rfl := List.mem_singleton.mp hm
    obtain ⟨id, origin, hid, ho⟩ := hr.arrived_of_confirm hs
    exact ⟨.call hr.coherent hr.conserved hs, id, origin, hid, ho.append⟩

/-- A tracked delivery is on the current connection unless that was lost while it was opened. -/
theorem Reached.isCurrent_iff (h : Reached past s) {e : TrackedDelivery}
    (he : e ∈ s.client.core.confirmations) : s.client.core.isCurrent e.delivery.connection ↔
      ¬ OpeningLost past e.delivery.connection := by
  have hcurrent : s.client.core.isCurrent e.delivery.connection ↔
      s.client.core.connection = some e.delivery.connection := by simp [Core.isCurrent]
  rw [hcurrent]
  refine ⟨fun hk hl => (h.tied.lost _ hl).2 hk, fun hn => ?_⟩
  have hstanding := h.tied.standing
  rw [Phase.standing] at hstanding
  split_ifs at hstanding
  · have hnil : s.client.core.confirmations = [] := hstanding
    rw [hnil] at he
    cases he
  · exact (hstanding e he).resolve_right hn
  · exact absurd (hstanding e he) hn

structure System.ConfirmsKept (past : List (Move ℓ)) (s : System ℓ) : Prop where
  /-- Tracked deliveries are on the current connection, unless that was lost while it was opened. -/
  current : ∀ e ∈ s.client.core.confirmations,
    s.client.core.isCurrent e.delivery.connection ↔ ¬ OpeningLost past e.delivery.connection
  /-- A confirmation has its result in the turn of its signal, and is acknowledged there with the
  tag and on the connection of the delivery, unless the delivery is still tracked although its
  connection was lost while it was opened. -/
  confirmed : ∀ seen d p, .call seen (.confirm d) p ∈ past →
    ∃ id origin, d.confirmation = some id ∧ (∀ o, Arrived past d o ↔ o = origin) ∧
      ∀ x s', s.step (.take x) = some s' →
        (p ∈ s'.agenda.flatMap Effect.settled ↔ x = .confirm id p) ∧
        (x = .confirm id p → (s.client.core.Acknowledges x origin p ↔
          ¬ ((∃ e ∈ s.client.core.confirmations, e.id = id) ∧
            OpeningLost past origin.connection)))

theorem Reached.confirms_kept (h : Reached past s) : s.ConfirmsKept past := by
  constructor
  · intro e he
    exact h.isCurrent_iff he
  · intro seen d p hcall
    obtain ⟨hc, id, origin, hid, ho⟩ := h.confirming hcall
    have hunique (o : PendingDelivery) : Arrived past d o ↔ o = origin := by
      constructor
      · intro ho'
        exact h.numbered.unique d d _ _ id ho' ho hid hid
      · rintro rfl
        exact ho
    refine ⟨id, origin, hid, hunique, ?_⟩
    intro x s' hs
    constructor
    · constructor
      · intro hp
        obtain ⟨id', hid', hx⟩ := (hc.take h hs).2 hp
        obtain rfl : id = id' := Option.some.inj (hid.symm.trans hid')
        exact hx
      · rintro rfl
        obtain ⟨-, rest, -, rfl⟩ := System.step_take hs
        exact s.client.core.settles_confirm id p
    · rintro rfl
      -- What is tracked under the number is the message that the delivery arrived with.
      have horigin : ∀ e ∈ s.client.core.confirmations, e.id = id → e.delivery = origin := by
        intro e he hn
        obtain ⟨d', hd', ho'⟩ := h.numbered.tracked e he
        exact h.numbered.unique d' d _ _ id ho' ho (hn ▸ hd') hid
      rw [Core.acknowledges_iff horigin]
      refine not_congr (and_congr_right ?_)
      rintro ⟨e, he, hn⟩
      rw [← horigin e he hn, h.isCurrent_iff he, not_not]

def newsMessage : InboundMessage where
  subscription := ⟨"news", none⟩
  topic := "news"
  qos := .atLeastOnce
  tag := 7
  ttl := none
  properties := {}
  payload := .bytes []

def subscribeByHand : List (Move Unit) :=
  let params : SubscribeParams :=
    { topic := ⟨"news", none⟩, qos := .atLeastOnce, credit := 1, autoConfirm := false
      ttlSeconds := 0 }
  let options : SubscribeOptions := { qos := .atLeastOnce, credit := 1, autoConfirm := false }
  [.call .stopped .start 0, .take (.start (some 0)), .perform (.publish .starting),
    .perform (.notify .starting), .perform (.request .lookup),
    .answerLookup (.ok (.found default)), .take (.endpointAnswered (.ok (.found default))),
    .perform (.publish .starting), .perform (.request (.connect ⟨1⟩ default)),
    .answer (.opened ⟨1⟩) (.ok ()), .take (.opened ⟨1⟩ (.ok ())), .perform (.publish .started),
    .perform (.request (.report default)), .perform (.settle 0 (.ok ())),
    .perform (.notify .started), .call .started (.subscribe params.topic options 0) 1,
    .take (.work (.subscribe ⟨params, 0, 1⟩)), .perform (.request (.subscribe ⟨1⟩ params)),
    .answer (.subscribed ⟨1⟩ params.topic) (.ok ()),
    .take (.subscribed ⟨1⟩ params.topic (.ok ())), .perform (.settle 1 (.ok ()))]

def deliverAndConfirm (k : ConnectionId) (ends : List (Move Unit)) : List (Move Unit) :=
  let delivery : Delivery := .ofInbound newsMessage (some 1)
  [.deliver k newsMessage, .take (.delivered k newsMessage),
    .perform (.notify (.delivery 0 delivery none))] ++ ends ++
  [.call .started (.confirm delivery) 2]

set_option maxRecDepth 8000 in
theorem Reached.confirms_kept_deliverAndConfirm :
    ∃ s s', Reached (subscribeByHand ++ deliverAndConfirm ⟨1⟩ []) s ∧
      s.step (.take (.confirm 1 2)) = some s' ∧
      s'.agenda = [.request (.confirm ⟨1⟩ 7), .settle 2 (.ok ())] ∧
      s.ConfirmsKept (subscribeByHand ++ deliverAndConfirm ⟨1⟩ []) := by
  have hr : ∃ s, (System.new "" 1).run (subscribeByHand ++ deliverAndConfirm ⟨1⟩ []) = some s ∧
      ∃ s', s.step (.take (.confirm 1 2)) = some s' ∧
        s'.agenda = [.request (.confirm ⟨1⟩ 7), .settle 2 (.ok ())] := ⟨_, rfl, _, rfl, rfl⟩
  obtain ⟨s, hs, s', hs', ha⟩ := hr
  exact ⟨s, s', ⟨"", 1, hs⟩, hs', ha, Reached.confirms_kept ⟨"", 1, hs⟩⟩

/-- A run in which a message is delivered on a connection that is being opened to reconnect, and
the opening fails before the application confirms the message. -/
def confirmAfterLoss : List (Move Unit) :=
  subscribeByHand ++ ([.disconnect ⟨1⟩ (.network "lost"),
    .take (.disconnected ⟨1⟩ (.network "lost")), .perform (.publish .retrying),
    .perform .takeDrain, .perform (.notify (.retrying (some (.network "lost")))),
    .perform (.request .lookup), .answerLookup (.ok (.found default)),
    .take (.endpointAnswered (.ok (.found default))), .perform (.publish .retrying),
    .perform (.request (.connect ⟨2⟩ default))] : List (Move Unit)) ++
  deliverAndConfirm ⟨2⟩ [.answer (.opened ⟨2⟩) (.error (.network "refused")),
    .take (.opened ⟨2⟩ (.error (.network "refused"))), .perform (.publish .retrying),
    .perform (.notify (.retrying (some (.network "refused")))), .perform (.request .lookup)]

set_option maxRecDepth 8000 in
/-- The confirmation succeeds though there is no connection on which to acknowledge the message. -/
theorem Reached.confirmed_without_connection : ∃ s s', Reached confirmAfterLoss s ∧
    s.client.core.connection = none ∧ s.client.core.confirmations = [⟨1, ⟨⟨2⟩, 7⟩⟩] ∧
      s.step (.take (.confirm 1 2)) = some s' ∧ s'.agenda = [.settle 2 (.ok ())] ∧
      ¬ s.client.core.Acknowledges (.confirm 1 2) ⟨⟨2⟩, 7⟩ 2 := by
  have hr : ∃ s, (System.new "" 1).run confirmAfterLoss = some s ∧
      s.client.core.connection = none ∧ s.client.core.confirmations = [⟨1, ⟨⟨2⟩, 7⟩⟩] ∧
        ∃ s', s.step (.take (.confirm 1 2)) = some s' ∧ s'.agenda = [.settle 2 (.ok ())] :=
    ⟨_, rfl, rfl, rfl, _, rfl, rfl⟩
  obtain ⟨s, hs, hk, hc, s', hs', ha⟩ := hr
  refine ⟨s, s', ⟨"", 1, hs⟩, hk, hc, hs', ha, fun hack => ?_⟩
  obtain ⟨-, rest, -, rfl⟩ := System.step_take hs'
  have ha : (s.client.core.handle (.confirm 1 2)).effects = [.settle 2 (.ok ())] := ha
  have hwire := hack.ok (by rw [ha]; exact List.mem_singleton_self _)
  simp [ha] at hwire

end Reached

end PubSub
