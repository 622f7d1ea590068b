import PubSub.Core.Handle
import PubSub.Proofs.WellFormed
import PubSub.Session.Callbacks

/-! # Bodies of deliveries

A message arrives whole. Text that is well-formed is delivered as a text with
the same bytes, all other text as its bytes, and a delivery is handed to the one
callback of its listener that is for what has become of the body.
-/

namespace PubSub

namespace Body

/-- The body holds bytes that the sender calls a text: the text itself if they are well-formed,
and otherwise the bytes. -/
structure Holds (make : String → Body) (data : Bytes) (b : Body) : Prop where
  readable : (∃ s, b = make s) ↔ Utf8.WellFormed data
  exact : ∀ s, b = make s → Utf8.encode s = data ∧ s.toUTF8 = data.toByteArray
  unreadable : ¬ Utf8.WellFormed data → ∃ description, b = .malformed data .noMapping description

theorem holds_decoded (make : String → Body) (describe : Utf8.Failure → String) (data : Bytes)
    (hinj : ∀ s s', make s = make s' → s = s')
    (hmake : ∀ s data reason description, make s ≠ .malformed data reason description) :
    Holds make data (match Utf8.decode data with
      | .ok s => make s
      | .error e => .malformed data .noMapping (describe e)) := by
  cases hd : Utf8.decode data with
  | ok s =>
    have hdata := Utf8.decode_eq_ok_iff.mp hd
    have hwell : Utf8.WellFormed data := Utf8.exists_decode_iff.mp ⟨s, hd⟩
    refine ⟨⟨fun _ => hwell, fun _ => ⟨s, rfl⟩⟩, fun s' hs' => ?_, fun h => absurd hwell h⟩
    obtain rfl := hinj s s' hs'
    exact ⟨hdata, hdata ▸ Utf8.toUTF8_eq_encode s⟩
  | error e =>
    have hill : ¬ Utf8.WellFormed data := by
      intro h
      obtain ⟨s, hs⟩ := Utf8.exists_decode_iff.mpr h
      exact absurd (hd.symm.trans hs) nofun
    refine ⟨⟨fun ⟨s, hs⟩ => ?_, fun h => absurd h hill⟩, fun s hs => ?_, fun _ => ⟨_, rfl⟩⟩
    · exact absurd hs.symm (hmake s _ _ _)
    · exact absurd hs.symm (hmake s _ _ _)

theorem holds_text (data : Bytes) : Holds .text data (ofPayload (.text data)) :=
  holds_decoded .text _ data (fun _ _ => Body.text.inj) nofun

theorem holds_json (data : Bytes) : Holds .json data (ofPayload (.json data)) :=
  holds_decoded .json _ data (fun _ _ => Body.json.inj) nofun

end Body

structure Delivery.Keeps (m : InboundMessage) (d : Delivery) : Prop where
  topic : d.topic = m.topic
  pattern : d.pattern = m.subscription.pattern
  share : d.share = m.subscription.share
  qos : d.qos = m.qos
  ttl : d.ttl = m.ttl
  properties : d.properties = m.properties
  text : ∀ data, m.payload = .text data → d.body.Holds .text data
  json : ∀ data, m.payload = .json data → d.body.Holds .json data
  bytes : ∀ data, m.payload = .bytes data → d.body = .bytes data
  malformed : ∀ data reason description, m.payload = .malformed data reason description →
    d.body = .malformed data reason description

theorem Delivery.keeps_ofInbound (m : InboundMessage) (confirmation : Option ConfirmationId) :
    (ofInbound m confirmation).Keeps m where
  topic := rfl
  pattern := rfl
  share := rfl
  qos := rfl
  ttl := rfl
  properties := rfl
  text := fun data h => by
    rw [ofInbound, h]
    exact Body.holds_text data
  json := fun data h => by
    rw [ofInbound, h]
    exact Body.holds_json data
  bytes := fun data h => by rw [ofInbound, h, Body.ofPayload]
  malformed := fun data reason description h => by rw [ofInbound, h, Body.ofPayload]

namespace Session

theorem takeHook_eq (occasion : Occasion) (hooks : List Hook) : takeHook occasion hooks =
    (((hooks.find? (·.occasion = occasion)).map Hook.steps).getD [],
      hooks.eraseP (·.occasion = occasion)) := by
  induction hooks with
  | nil => rfl
  | cons h rest ih =>
    by_cases ho : h.occasion = occasion
    · simp [takeHook, ho]
    · simp [takeHook, ho, ih]

/-- What a listener notes of a delivery before its callback for an occasion plays. -/
def World.noted (w : World) (listener : ListenerId) (l : SubscriptionListener) (o : Occasion)
    (d : Delivery) : World :=
  { w with
    deliveries := w.deliveries ++ [d]
    log := w.log ++ [.delivered listener w.deliveries.length d]
    listeners := w.listeners.set listener { l with hooks := l.hooks.eraseP (·.occasion = o) } }

/-- The callback of a listener for an occasion plays its next hook, and no other one. -/
def CallsBack (play : Step → Play Answer) (listener : ListenerId) (o : Occasion) (d : Delivery)
    (w : World) (x : Play Unit) : Prop :=
  ∀ l, w.listeners[listener]? = some l → x.run.run w =
    (playSteps play o (((l.hooks.find? (·.occasion = o)).map Hook.steps).getD [])).run.run
      (w.noted listener l o d)

theorem run_get_bind (f : World → Play Unit) (w : World) :
    (get >>= f).run.run w = (f w).run.run w := rfl

theorem run_playListenerHook (play : Step → Play Answer) (o : Occasion) {listener : ListenerId}
    {l : SubscriptionListener} {w : World} (hl : w.listeners[listener]? = some l) :
    (playListenerHook play listener o).run.run w =
      (playSteps play o (((l.hooks.find? (·.occasion = o)).map Hook.steps).getD [])).run.run
        { w with
          listeners := w.listeners.set listener
            { l with hooks := l.hooks.eraseP (·.occasion = o) } } := by
  unfold playListenerHook
  rw [run_get_bind]
  dsimp only
  rw [hl]
  dsimp only
  rw [takeHook_eq]
  rfl

theorem callsBack_receive (play : Step → Play Answer) (listener : ListenerId) (d : Delivery)
    (w : World) (hd : ¬ (d.isMalformed && w.isMinimal listener)) :
    CallsBack play listener (if d.isMalformed then .malformed else .message) d w
      (receive play listener d) := by
  intro l hl
  unfold receive
  rw [run_get_bind, if_neg hd]
  exact run_playListenerHook play _ (w := { w with
    deliveries := w.deliveries ++ [d]
    log := w.log ++ [.delivered listener w.deliveries.length d] }) hl

/-- A listener without a callback for malformed deliveries takes no notice of them. -/
theorem run_receive_minimal (play : Step → Play Answer) {listener : ListenerId} {d : Delivery}
    {w : World} (hd : d.isMalformed && w.isMinimal listener) :
    (receive play listener d).run.run w = (.ok (), w) := by
  unfold receive
  rw [run_get_bind, if_pos hd]
  rfl

end Session

/-- A message is delivered as what it is: nothing of it is lost, the listener of its subscription
is told of it, and one callback of the listener plays. -/
structure InboundMessage.ArrivesWhole (m : InboundMessage) : Prop where
  kept : ∀ confirmation, (Delivery.ofInbound m confirmation).Keeps m
  /-- On the current connection a message for a row is handed to the listener of the row. -/
  notified : ∀ (c : Core) (k : ConnectionId) row, c.isCurrent k →
    c.subscriptions.find? m.subscription = some row → ∃ confirmation acknowledge,
      (c.handle (.delivered k m)).effects =
        [.notify (.delivery row.listener (.ofInbound m confirmation) acknowledge)]
  ignored : ∀ (c : Core) (k : ConnectionId),
    ¬ (c.isCurrent k ∧ (c.subscriptions.find? m.subscription).isSome) →
      c.handle (.delivered k m) = Turn.begin c
  /-- Malformed deliveries are for the callback for these, if the listener has it. -/
  malformed : ∀ play listener confirmation acknowledge (w : Session.World) data reason description,
    (Delivery.ofInbound m confirmation).body = .malformed data reason description →
      let task := Session.runTask play
        (.notification (.delivery listener (.ofInbound m confirmation) acknowledge))
      if w.isMinimal listener then task.run.run w = (.ok (), w)
      else Session.CallsBack play listener .malformed (.ofInbound m confirmation) w task
  /-- All other ones are for the callback for messages. -/
  message : ∀ play listener confirmation acknowledge (w : Session.World),
    (∀ data reason description,
      (Delivery.ofInbound m confirmation).body ≠ .malformed data reason description) →
      Session.CallsBack play listener .message (.ofInbound m confirmation) w
        (Session.runTask play
          (.notification (.delivery listener (.ofInbound m confirmation) acknowledge)))

theorem InboundMessage.arrives_whole (m : InboundMessage) : m.ArrivesWhole where
  kept := Delivery.keeps_ofInbound m
  notified := by
    intro c k row hk hf
    simp only [Core.handle, Turn.handle, Turn.onDelivered, Turn.core_begin, hk, hf, if_true]
    split_ifs
    · exact ⟨none, none, rfl⟩
    · exact ⟨none, some ⟨k, m.tag⟩, rfl⟩
    · exact ⟨some (c.tracked + 1), none, rfl⟩
  ignored := by
    intro c k h
    simp only [Core.handle, Turn.handle, Turn.onDelivered, Turn.core_begin]
    by_cases hk : c.isCurrent k
    · have hnone : c.subscriptions.find? m.subscription = none := by
        simpa [hk] using h
      simp [hk, hnone]
    · simp [hk]
  malformed := by
    intro play listener confirmation acknowledge w data reason description hbody
    have hd : (Delivery.ofInbound m confirmation).isMalformed := by
      rw [Delivery.isMalformed, hbody]
      rfl
    dsimp only
    split_ifs with hw
    · exact Session.run_receive_minimal play (by rw [hd, hw]; rfl)
    · have h := Session.callsBack_receive play listener (.ofInbound m confirmation) w
        (by simp [hw])
      rwa [if_pos hd] at h
  message := by
    intro play listener confirmation acknowledge w hbody
    have hd : (Delivery.ofInbound m confirmation).isMalformed = false := by
      cases hb : (Delivery.ofInbound m confirmation).body with
      | malformed data reason description => exact absurd hb (hbody data reason description)
      | _ => rw [Delivery.isMalformed, hb]; rfl
    have h := Session.callsBack_receive play listener (.ofInbound m confirmation) w (by simp [hd])
    rwa [hd] at h

end PubSub
