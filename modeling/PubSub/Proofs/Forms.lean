import PubSub.Proofs.Confirms
import PubSub.Proofs.Sources

/-! # Forms of rows

While a client is not stopping, every row has one of five shapes, and the phase
tells which of them there may be: nothing waits in a started client except
behind an operation that is under way, all rows are broken while the client has
no connection, and only a session that has been up has rows at all.
-/

namespace PubSub

open Subscription

/-- The shapes of rows while a client is not stopping. -/
def Subscription.InForm (row : Subscription) : Prop :=
  row.Settled ∨ row.Attaching ∨ row.Renewing ∨ row.Detaching ∨ row.Broken

theorem Subscription.Live.inForm {row : Subscription} (h : row.Live) : row.InForm := by
  rcases h with h | h | h
  · exact .inl h
  · exact .inr (.inl h)
  · exact .inr (.inr (.inr (.inl h)))

namespace RowShape

variable {r : RowShape} {row : Subscription}

theorem Admits.inForm (h : r.Admits row) (hr : r ≠ .any) : row.InForm := by
  cases r with
  | empty => cases h
  | settled => exact Live.inForm (.inl h)
  | live => exact Live.inForm h
  | broken => exact .inr (.inr (.inr (.inr h)))
  | renewing => exact h.elim (fun h => .inr (.inr (.inl h))) .inl
  | any => exact absurd rfl hr

end RowShape

/-- The rows are kept by their topics, and in the shapes of the phase. -/
structure Core.RowsInForm (c : Core) : Prop where
  sorted : c.subscriptions.Sorted
  found : ∀ topic row, c.subscriptions.find? topic = some row ↔
    row ∈ c.subscriptions ∧ row.params.topic = topic
  forms : ¬ c.phase.isStopping → ∀ row ∈ c.subscriptions, row.InForm
  /-- Only subscribes and unsubscribes of the topic of a row wait in it. -/
  waiting : ∀ row ∈ c.subscriptions, ∀ w ∈ row.pending, w.isOn row.params.topic
  started : c.phase = .started → c.pendingWork = [] ∧
    ∀ row ∈ c.subscriptions, row.awaiting = [] ∧ row.state ≠ .broken ∧ row.remaking = false
  reconnecting : c.phase ∈ [.reconnectWait, .reconnectLookup, .reconnectOpen] →
    ∀ row ∈ c.subscriptions, row.Broken
  remaking : c.phase = .remaking →
    ∀ row ∈ c.subscriptions, row.remaking ∨ row.state = .established
  /-- Nothing is tracked before a session is up, nor at its end. -/
  untracked : c.phase ∈ [.startingLookup, .startingOpen, .retryWait, .retryLookup, .retryOpen,
      .stoppingFlush, .stopped] → c.subscriptions = []

theorem Subscription.Live.state_ne_broken {row : Subscription} (h : row.Live) :
    row.state ≠ .broken := by
  intro hs
  rcases h with h | h | h <;> exact absurd (h.state.symm.trans hs) nofun

theorem Subscriptions.Sorted.find?_eq_some_iff {rows : Subscriptions} (h : rows.Sorted)
    {topic : Topic} {row : Subscription} :
    rows.find? topic = some row ↔ row ∈ rows ∧ row.params.topic = topic := by
  constructor
  · exact Subscriptions.find?_eq_some
  · rintro ⟨hrow, rfl⟩
    exact h.find?_of_mem hrow

/-- The marks of the phase tell the shapes of the rows. -/
theorem Core.rowsInForm {c : Core} {lost : ConnectionId → Topic → Prop} {due : Awaited → Nat}
    (h : Tracking c.phase.marks lost c due)
    (hw : ∀ row ∈ c.subscriptions, ∀ w ∈ row.pending, w.isOn row.topic) : c.RowsInForm where
  sorted := h.sorted
  found := fun _ _ => h.sorted.find?_eq_some_iff
  forms := fun hp row hrow => (h.shape row hrow).inForm (Phase.rowShape_ne_any hp)
  waiting := hw
  started := by
    intro hp
    have hlive : c.phase.marks.rows = .live := by rw [hp]; rfl
    have hrows : ∀ row ∈ c.subscriptions, RowShape.live.Admits row := hlive ▸ h.shape
    refine ⟨h.work hlive, fun row hrow => ?_⟩
    have hrow : row.Live := hrows row hrow
    exact ⟨hrow.awaiting, hrow.state_ne_broken, hrow.remaking⟩
  reconnecting := by
    intro hp
    have hbroken : c.phase.marks.rows = .broken := by
      simp only [List.mem_cons, List.not_mem_nil, or_false] at hp
      rcases hp with hp | hp | hp <;> rw [hp] <;> rfl
    have hrows : ∀ row ∈ c.subscriptions, RowShape.broken.Admits row := hbroken ▸ h.shape
    exact hrows
  remaking := by
    intro hp row hrow
    have hrenewing : c.phase.marks.rows = .renewing := by rw [hp]; rfl
    have hrows : ∀ row ∈ c.subscriptions, RowShape.renewing.Admits row := hrenewing ▸ h.shape
    exact (hrows row hrow).imp (·.remaking) (·.state)
  untracked := by
    intro hp
    have hempty : c.phase.marks.rows = .empty := by
      simp only [List.mem_cons, List.not_mem_nil, or_false] at hp
      rcases hp with hp | hp | hp | hp | hp | hp | hp <;> rw [hp] <;> rfl
    have hrows : ∀ row ∈ c.subscriptions, RowShape.empty.Admits row := hempty ▸ h.shape
    exact List.eq_nil_iff_forall_not_mem.mpr hrows

/-- In every state of every run, the rows are in form. -/
theorem Reached.rows_in_form {ℓ : Type} {past : List (Move ℓ)} {s : System ℓ}
    (h : Reached past s) : s.client.core.RowsInForm :=
  Core.rowsInForm h.coherent.sound.tracking fun row hrow w hw =>
    ((h.stemsFrom.rows row hrow).pending w hw).1

/-- A run in which a lost connection interrupts the first subscribe, which is renewed on the next
connection. -/
def resumeNews : List (Move Unit) :=
  let params : SubscribeParams :=
    { topic := ⟨"news", none⟩, qos := .atLeastOnce, credit := 1, autoConfirm := false
      ttlSeconds := 0 }
  subscribeByHand.take 18 ++ ([.disconnect ⟨1⟩ (.network "lost"),
    .take (.disconnected ⟨1⟩ (.network "lost")), .perform (.publish .retrying),
    .perform .takeDrain, .perform (.notify (.retrying (some (.network "lost")))),
    .perform (.request .lookup), .answerLookup (.ok (.found default)),
    .take (.endpointAnswered (.ok (.found default))), .perform (.publish .retrying),
    .perform (.request (.connect ⟨2⟩ default)), .answer (.opened ⟨2⟩) (.ok ()),
    .take (.opened ⟨2⟩ (.ok ())), .perform (.publish .retrying),
    .perform (.request (.report default)), .perform (.request (.subscribe ⟨2⟩ params))] :
    List (Move Unit))

set_option maxRecDepth 8000 in
theorem Reached.rows_in_form_resumeNews :
    ∃ s, Reached resumeNews s ∧ s.client.core.phase = .remaking ∧
      s.client.core.subscriptions.map (fun row => (row.remaking, row.awaiting)) = [(true, [1])] ∧
      s.client.core.RowsInForm := by
  have hr : ∃ s, (System.new "" 1).run resumeNews = some s ∧ s.client.core.phase = .remaking ∧
      s.client.core.subscriptions.map (fun row => (row.remaking, row.awaiting)) =
        [(true, [1])] := ⟨_, rfl, rfl, rfl⟩
  obtain ⟨s, hs, hp, hrows⟩ := hr
  exact ⟨s, ⟨"", 1, hs⟩, hp, hrows, Reached.rows_in_form ⟨"", 1, hs⟩⟩

end PubSub
