import PubSub.Proofs.LastCalls
import PubSub.Proofs.Notices

/-! # The results of subscribes and unsubscribes are true

A subscribe succeeds with the answer of the current connection to the call that
was made last for the topic, and this call asked for what the subscribe wants.
An unsubscribe succeeds with the answer that removes the row. The client turns a
subscribe down by itself when there is an idle row, and an unsubscribe when there
is none, and it changes nothing then. Other failures are those of the server, or
of a client that stops.
-/

namespace PubSub

open Turn

/-- A row of the topic is established or attaching, and nothing waits in it. -/
def Core.HasIdle (c : Core) (topic : Topic) : Prop :=
  ∃ row, c.subscriptions.find? topic = some row ∧ row.isIdle

variable {ℓ : Type}

structure System.Truthful (past : List (Move ℓ)) (s : System ℓ) : Prop where
  /-- What is issued is issued in turns. -/
  issued : s.issued past = (turns past).flatMap fun t => (t.1.handle t.2).effects
  /-- A subscribe succeeds when the server acknowledges its row. The answer is that to the last
  call for the topic on the connection, which asked for what the subscribe wants. -/
  subscribed : ∀ before x later r, past = before ++ .take x :: later →
    Called past (.work (.subscribe r)) →
    .settle r.promise (.ok ()) ∈ ((Core.after before).handle x).effects →
      (Core.after before).Subscribes x r ∧ ∃ k rs, x = .subscribed k r.params.topic (.ok ()) ∧
        exchanges k r.params.topic before =
          Exchange.rounds rs ++ [.asked r.params, .answered (.ok ())]
  /-- It is a duplicate only if there is an idle row when it is decided, and nothing else comes of
  it then. The server may refuse it with that error too. -/
  duplicate : ∀ before x later r address, past = before ++ .take x :: later →
    Called past (.work (.subscribe r)) →
    .settle r.promise (.error (.alreadySubscribed address)) ∈
      ((Core.after before).handle x).effects →
      (∃ t, (Core.after before).Does x (.subscribe r) t ∧ t.core.HasIdle r.params.topic ∧
        t.onWork (.subscribe r) = t.settle (.error (.alreadySubscribed address)) r.promise) ∨
      (Core.after before).Refuses x (.alreadySubscribed address) (.subscribe r)
  /-- Whenever it is decided while there is an idle row, it is a duplicate. -/
  duplicates : ∀ before x later r t, past = before ++ .take x :: later →
    (Core.after before).Does x (.subscribe r) t → t.core.phase.view.work = .accept →
      (t.onWork (.subscribe r) =
        t.settle (.error (.alreadySubscribed r.params.topic.address)) r.promise ↔
          t.core.HasIdle r.params.topic)
  /-- An unsubscribe succeeds when the server acknowledges it, and that removes the row. -/
  unsubscribed : ∀ before x later r, past = before ++ .take x :: later →
    Called past (.work (.unsubscribe r)) →
    .settle r.promise (.ok ()) ∈ ((Core.after before).handle x).effects →
      (Core.after before).Unsubscribes x r
  /-- There is nothing to unsubscribe from only if there is no row when it is decided, and nothing
  else comes of it then. The server may refuse it with that error too. -/
  absent : ∀ before x later r address, past = before ++ .take x :: later →
    Called past (.work (.unsubscribe r)) →
    .settle r.promise (.error (.notSubscribed address)) ∈ ((Core.after before).handle x).effects →
      (∃ t, (Core.after before).Does x (.unsubscribe r) t ∧
        t.core.subscriptions.find? r.topic = none ∧
        t.onWork (.unsubscribe r) = t.settle (.error (.notSubscribed address)) r.promise) ∨
      (Core.after before).Refuses x (.notSubscribed address) (.unsubscribe r)
  /-- Whenever it is decided while there is no row, there is nothing to unsubscribe from. -/
  absents : ∀ before x later r t, past = before ++ .take x :: later →
    (Core.after before).Does x (.unsubscribe r) t → t.core.phase.view.work = .accept →
      (t.onWork (.unsubscribe r) =
        t.settle (.error (.notSubscribed r.topic.address)) r.promise ↔
          t.core.subscriptions.find? r.topic = none)
  /-- An unsubscribe that the current connection refuses leaves its row, unless the client stops or
  the error tells of a lost connection. -/
  refused : ∀ before k topic e later,
    past = before ++ .take (.unsubscribed k topic (.error e)) :: later →
    (Core.after before).connection = some k → ¬ e.isRetryable →
    ¬ (Core.after before).phase.isStopping →
      (Core.after before).Restores (.unsubscribed k topic (.error e)) topic
  /-- Any other refusal of an unsubscribe is ignored. -/
  ignored : ∀ before k topic e later,
    past = before ++ .take (.unsubscribed k topic (.error e)) :: later →
    (Core.after before).connection ≠ some k ∨ e.isRetryable ∨
      (Core.after before).phase.isStopping →
      (Core.after before).handle (.unsubscribed k topic (.error e)) =
        Turn.begin (Core.after before)
  /-- Every row that is there has begun in a turn. -/
  begun : ∀ topic earlier later, past = earlier ++ later →
    ((Core.after earlier).subscriptions.find? topic).isSome →
    ∃ start x between row, earlier = start ++ [Move.take x] ++ between ∧
      Lifetime topic start x between row
  /-- The parameters and the listener of a row stay. -/
  kept : ∀ topic start x between later row,
    past = start ++ [Move.take x] ++ between ++ later → Lifetime topic start x between row →
      ∃ row',
        (Core.after (start ++ [Move.take x] ++ between)).subscriptions.find? topic = some row' ∧
        row'.params = row.params ∧ row'.listener = row.listener

namespace Reached

variable {s : System ℓ} {past before later : List (Move ℓ)} {x : Signal} {w : Work} {p : PromiseId}
  {result : Outcome}

theorem stop_of_pending (h : Reached past s) :
    ∀ p ∈ s.client.core.pendingStops, .take (.stop p) ∈ past := by
  refine h.turn_induction
    (P := fun past s => ∀ p ∈ s.client.core.pendingStops, .take (.stop p) ∈ past)
    (fun _ _ => by simp [System.new, Client.new]) ?_ ?_
  · intro past s m s' hr ih hs hm p hp
    rw [System.core_step hs hm] at hp
    exact List.mem_append_left _ (ih p hp)
  · intro past s x s' hr ih hs p hp
    rw [System.core_take hs] at hp
    rcases List.mem_append.mp ((hr.handles hs).mem_pendingStops hp) with hp | hp
    · exact List.mem_append_left _ (ih p hp)
    · cases x with
      | stop q =>
        obtain rfl := List.mem_singleton.mp hp
        exact List.mem_append_right _ (List.mem_singleton_self _)
      | _ => cases hp

/-- Work that was called is concluded in every turn that settles its promise. -/
theorem concludes (h : Reached (before ++ .take x :: later) s)
    (hw : Called (before ++ .take x :: later) (.work w))
    (he : .settle w.promise result ∈ ((Core.after before).handle x).effects) :
    (Core.after before).Concludes x w result := by
  obtain ⟨u, v, hu, hs⟩ := h.of_append_cons
  obtain ⟨hd, hown⟩ := hu.coherent.beside_take hs
  -- The promise is that of no other signal.
  have honly (y : Signal) (hy : .take y ∈ before ++ .take x :: later)
      (hp : w.promise ∈ y.promises) : y = .work w := by
    have hhandled : y ∈ handled (before ++ .take x :: later) :=
      List.mem_flatMap.mpr ⟨_, hy, List.mem_singleton_self _⟩
    exact h.given.eq_of_mem (List.mem_append_left _ hhandled) (h.given.complete _ hw) hp
      (List.mem_singleton_self _)
  have hbefore {m : Move ℓ} (hm : m ∈ before) : m ∈ before ++ .take x :: later :=
    List.mem_append_left _ hm
  have hx : .take x ∈ before ++ Move.take x :: later := by simp
  have hknown := hu.stemsFrom.mono fun v (hv : Handled before v) =>
    show Handled (before ++ .take x :: later) v from hbefore hv
  rw [← hu.core_eq] at he ⊢
  rcases hu.coherent.sound.settle_handle hd hknown (fun hl => (hown hl).1)
    (fun v hv => by simp [Handled, hv]) he with hp | hp | ⟨id, rfl⟩ | ⟨v, hv, hp, hc⟩
  · rcases List.mem_append.mp hp with hp | hp
    · cases honly _ (hbefore (hu.startsKnown.started _ hp)) (List.mem_singleton_self _)
    · cases x with
      | start q =>
        obtain rfl := Option.mem_toList.mp hp
        cases honly _ hx (List.mem_singleton_self _)
      | _ => cases hp
  · rcases List.mem_append.mp hp with hp | hp
    · cases honly _ (hbefore (hu.stop_of_pending _ hp)) (List.mem_singleton_self _)
    · cases x with
      | stop q =>
        obtain rfl := List.mem_singleton.mp hp
        cases honly _ hx (List.mem_singleton_self _)
      | _ => cases hp
  · cases honly _ hx (List.mem_singleton_self _)
  · cases honly _ hv (by simp [Signal.promises, hp])
    exact hc

/-- A client that takes work at some moment of a turn is connected then. -/
theorem isSome_of_does (h : Reached (before ++ .take x :: later) s) {t : Turn}
    (hdoes : (Core.after before).Does x w t) (hw : t.core.phase.view.work = .accept) :
    t.core.connection.isSome := by
  obtain ⟨u, v, hu, hs⟩ := h.of_append_cons
  rw [← hu.core_eq] at hdoes
  exact hu.connects_once.working x v hs w t hdoes hw

/-- The answer that lets a subscribe succeed is that to the last call for the topic. -/
theorem exchanges_of_subscribes (h : Reached (before ++ .take x :: later) s)
    {r : SubscribeRequest} (hr : (Core.after before).Subscribes x r) :
    ∃ k rs, x = .subscribed k r.params.topic (.ok ()) ∧ exchanges k r.params.topic before =
      Exchange.rounds rs ++ [.asked r.params, .answered (.ok ())] := by
  obtain ⟨k, row, -, rfl, hk, hparams, ⟨hf, -⟩, -⟩ := hr
  obtain ⟨u, v, hu, hs⟩ := h.of_append_cons
  rw [← hu.core_eq] at hk hf
  obtain ⟨rs, row', hf', hexchanges⟩ := hu.answers_last hs hk
  rw [Subscription.topic, hparams] at hf
  obtain rfl := Option.some.inj (hf.symm.trans hf')
  exact ⟨k, rs, rfl, hparams ▸ hexchanges⟩

theorem results_true (h : Reached past s) : s.Truthful past := by
  constructor
  · exact h.issued_turns
  · rintro before x later r rfl hr he
    have hsubscribes : (Core.after before).Subscribes x r := by
      cases h.concludes hr he with
      | subscribed hs => exact hs
      | turnedDown _ hdown => cases hdown
    exact ⟨hsubscribes, h.exchanges_of_subscribes hsubscribes⟩
  · rintro before x later r address rfl hr he
    cases h.concludes hr he with
    | refused hrefuses => exact .inr hrefuses
    | @turnedDown _ t _ hdoes hdown =>
      cases hdown with
      | @duplicate _ row hw hf hidle =>
        refine .inl ⟨t, hdoes, ⟨row, hf, hidle⟩, ?_⟩
        exact (onWork_subscribe_eq_settle_iff hw (h.isSome_of_does hdoes hw)).mpr ⟨row, hf, hidle⟩
  · rintro before x later r t rfl hdoes hw
    exact onWork_subscribe_eq_settle_iff hw (h.isSome_of_does hdoes hw)
  · rintro before x later r rfl hr he
    cases h.concludes hr he with
    | unsubscribed hs => exact hs
    | turnedDown _ hdown => cases hdown
  · rintro before x later r address rfl hr he
    cases h.concludes hr he with
    | refused hrefuses => exact .inr hrefuses
    | @turnedDown _ t _ hdoes hdown =>
      cases hdown with
      | unknown hw hnone =>
        refine .inl ⟨t, hdoes, hnone, ?_⟩
        exact (onWork_unsubscribe_eq_settle_iff hw (h.isSome_of_does hdoes hw)).mpr hnone
  · rintro before x later r t rfl hdoes hw
    exact onWork_unsubscribe_eq_settle_iff hw (h.isSome_of_does hdoes hw)
  · rintro before k topic e later rfl hk he hstop
    obtain ⟨u, v, hu, hs⟩ := h.of_append_cons
    obtain ⟨hd, -⟩ := hu.coherent.beside_take hs
    rw [← hu.core_eq] at hk hstop ⊢
    exact hu.coherent.sound.restores_unsubscribed hd hk he hstop
  · rintro before k topic e later rfl hlate
    obtain ⟨u, v, hu, hs⟩ := h.of_append_cons
    obtain ⟨hd, -⟩ := hu.coherent.beside_take hs
    rw [← hu.core_eq] at hlate ⊢
    cases hu.coherent.sound.unsubscribed_cases hd with
    | ignored _ heq => exact heq
    | detached hk _ _ hstarted hfinal _ =>
      rcases hlate with hne | hretryable | hstopping
      · exact absurd hk hne
      · exact absurd hretryable hfinal
      · rw [hstarted] at hstopping
        cases hstopping
  · rintro topic earlier later rfl hrow
    obtain ⟨u, hu, -⟩ := h.of_append
    exact hu.exists_lifetime hrow
  · rintro topic start x between later row rfl hl
    obtain ⟨u, hu, -⟩ := h.of_append
    obtain ⟨a, hrow, -⟩ := hu.row_of_lifetime hl
    obtain ⟨row', hrow', hstanding⟩ := Option.map_eq_some_iff.mp hrow
    obtain ⟨hlease, -⟩ := Prod.mk.inj hstanding
    exact ⟨row', hrow', congrArg Prod.fst hlease, congrArg Prod.snd hlease⟩

/-- A run in which a subscribe is a duplicate, the server refuses the first unsubscribe, and the
last one comes when there is no row any more. -/
def subscribeTwice : List (Move Unit) :=
  let topic := newsParams.topic
  let options : SubscribeOptions := { qos := .atLeastOnce, credit := 1, autoConfirm := false }
  subscribeByHand ++ ([.call .started (.subscribe topic options 1) 2,
    .take (.work (.subscribe ⟨newsParams, 1, 2⟩)),
    .perform (.settle 2 (.error (.alreadySubscribed topic.address))),
    .call .started (.unsubscribe topic none) 3, .take (.work (.unsubscribe ⟨topic, false, 3⟩)),
    .perform (.request (.unsubscribe ⟨1⟩ topic false)),
    .answer (.unsubscribed ⟨1⟩ topic) (.error (.security "denied")),
    .take (.unsubscribed ⟨1⟩ topic (.error (.security "denied"))),
    .perform (.settle 3 (.error (.security "denied"))),
    .call .started (.unsubscribe topic none) 4, .take (.work (.unsubscribe ⟨topic, false, 4⟩)),
    .perform (.request (.unsubscribe ⟨1⟩ topic false)), .answer (.unsubscribed ⟨1⟩ topic) (.ok ()),
    .take (.unsubscribed ⟨1⟩ topic (.ok ())), .perform (.settle 4 (.ok ())),
    .perform (.notify (.unsubscribed 0 topic none)), .call .started (.unsubscribe topic none) 5,
    .take (.work (.unsubscribe ⟨topic, false, 5⟩)),
    .perform (.settle 5 (.error (.notSubscribed topic.address)))] : List (Move Unit))

set_option maxRecDepth 8000 in
theorem results_true_subscribeTwice : ∃ s, Reached subscribeTwice s ∧
    exchanges ⟨1⟩ newsParams.topic subscribeTwice = Exchange.rounds [(newsParams, .ok ())] ∧
      s.Truthful subscribeTwice := by
  have hr : ∃ s, (System.new "" 1).run subscribeTwice = some s := ⟨_, rfl⟩
  obtain ⟨s, hs⟩ := hr
  exact ⟨s, ⟨"", 1, hs⟩, rfl, results_true ⟨"", 1, hs⟩⟩

end Reached

/-- An unsubscribe is asked for, and something happens before the server answers. -/
def askToUnsubscribe (happens : List (Move Unit)) (result : Outcome) : List (Move Unit) :=
  let topic := newsParams.topic
  subscribeByHand ++ [.call .started (.unsubscribe topic none) 2,
    .take (.work (.unsubscribe ⟨topic, false, 2⟩)),
    .perform (.request (.unsubscribe ⟨1⟩ topic false))] ++ happens ++
  [.answer (.unsubscribed ⟨1⟩ topic) result]

def stopWhileAsking : List (Move Unit) :=
  [.call .started .stop 3, .take (.stop 3), .perform (.publish .stopping),
    .perform (.request (.disconnect ⟨1⟩))]

def loseWhileAsking : List (Move Unit) :=
  [.disconnect ⟨1⟩ (.network "lost"), .take (.disconnected ⟨1⟩ (.network "lost")),
    .perform (.publish .retrying), .perform .takeDrain,
    .perform (.notify (.retrying (some (.network "lost")))), .perform (.request .lookup)]

def askForNewsOnce (result : Outcome) : List (Move Unit) :=
  askForNews ++ [.take (.work (.subscribe ⟨newsParams, 0, 1⟩)),
    .perform (.request (.subscribe ⟨1⟩ newsParams)),
    .answer (.subscribed ⟨1⟩ newsParams.topic) result]

set_option maxRecDepth 8000 in
/-- A refused unsubscribe leaves a row that is not established while the client stops, when the
error is a network error, and when the connection is lost before. The server itself may call a
subscribe a duplicate, which removes its row, or say that there is no row when there is one. -/
theorem Reached.refusals_not_restored :
    (∀ r ∈ [(stopWhileAsking, ClientError.security "denied"), ([], .network "lost"),
        (loseWhileAsking, .security "denied")],
      ∃ s s', Reached (askToUnsubscribe r.1 (.error r.2)) s ∧
        s.step (.take (.unsubscribed ⟨1⟩ newsParams.topic (.error r.2))) = some s' ∧
        ∃ row, s'.client.core.subscriptions.find? newsParams.topic = some row ∧
          row.state ≠ .established) ∧
    (∃ s s', Reached (askForNewsOnce (.error (.alreadySubscribed "news"))) s ∧
      s.step (.take (.subscribed ⟨1⟩ newsParams.topic (.error (.alreadySubscribed "news")))) =
        some s' ∧
      s'.agenda = [.settle 1 (.error (.alreadySubscribed "news"))] ∧
      s'.client.core.subscriptions ≠ s.client.core.subscriptions) ∧
    ∃ s s', Reached (askToUnsubscribe [] (.error (.notSubscribed "news"))) s ∧
      s.step (.take (.unsubscribed ⟨1⟩ newsParams.topic (.error (.notSubscribed "news")))) =
        some s' ∧
      s'.agenda = [.settle 2 (.error (.notSubscribed "news"))] ∧
      (s.client.core.subscriptions.find? newsParams.topic).isSome := by
  refine ⟨?_, ⟨_, _, ⟨"", 1, rfl⟩, rfl, rfl, nofun⟩, _, _, ⟨"", 1, rfl⟩, rfl, rfl, rfl⟩
  rintro r hr
  simp only [List.mem_cons, List.not_mem_nil, or_false] at hr
  rcases hr with rfl | rfl | rfl
  · exact ⟨_, _, ⟨"", 1, rfl⟩, rfl, _, rfl, nofun⟩
  · exact ⟨_, _, ⟨"", 1, rfl⟩, rfl, _, rfl, nofun⟩
  · exact ⟨_, _, ⟨"", 1, rfl⟩, rfl, _, rfl, nofun⟩

end PubSub
