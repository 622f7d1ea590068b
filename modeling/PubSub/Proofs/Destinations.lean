import PubSub.Proofs.Addresses
import PubSub.Proofs.Locality

/-! # Destinations are independent

It does not matter in which order a started client handles two operations, or
answers to them, that are on different topics: the session is the same after
both of them, and for each topic the same effects come in the same order.
-/

namespace PubSub

namespace Subscriptions

theorem Sorted.ext {rows rows' : Subscriptions} (h : rows.Sorted) (h' : rows'.Sorted)
    (hf : ∀ topic, rows.find? topic = rows'.find? topic) : rows = rows' := by
  have hnodup {rows : Subscriptions} (h : rows.Sorted) : rows.Nodup :=
    h.imp fun hb he => Topic.ne_of_before hb (congrArg _ he)
  have hmem {rows : Subscriptions} (h : rows.Sorted) (row : Subscription) :
      row ∈ rows ↔ rows.find? row.topic = some row :=
    ⟨h.find?_of_mem, fun hf => (find?_eq_some hf).1⟩
  have hperm : rows.Perm rows' := by
    rw [List.perm_ext_iff_of_nodup (hnodup h) (hnodup h')]
    intro row
    rw [hmem h, hmem h', hf]
  refine hperm.eq_of_pairwise (fun a b _ _ hab hba => ?_) h h'
  exact absurd rfl (Topic.ne_of_before (Topic.before_trans hab hba))

end Subscriptions

namespace Core

variable {mine : PromiseId → Prop} {c : Core} {k : ConnectionId} {x y : Signal} {a b : Topic}

/-- What comes of two signals does not depend on which of them is handled first. -/
structure Commutes (c : Core) (x y : Signal) : Prop where
  core : ((c.handle x).core.handle y).core = ((c.handle y).core.handle x).core
  first : ((c.handle y).core.handle x).effects = (c.handle x).effects
  second : ((c.handle x).core.handle y).effects = (c.handle y).effects

open Turn in
theorem Commutes.of_actsOn (hp : c.phase = .started) (hk : c.connection = some k)
    (hs : c.subscriptions.Sorted) (hne : a ≠ b)
    (hx : ActsOn mine k a (c.subscriptions.find? a) (·.handle x))
    (hy : ActsOn mine k b (c.subscriptions.find? b) (·.handle y)) : c.Commutes x y := by
  obtain ⟨rowa, esa, -, -, hacts⟩ := hx
  obtain ⟨rowb, esb, -, -, hactsb⟩ := hy
  have hx : (begin c).Becomes a rowa esa (c.handle x) := hacts _ ⟨hp, hk, rfl⟩
  have hy : (begin c).Becomes b rowb esb (c.handle y) := hactsb _ ⟨hp, hk, rfl⟩
  have haty : (begin (c.handle x).core).At k b (c.subscriptions.find? b) :=
    have h := hx.at_other ⟨hp, hk, rfl⟩ hne.symm
    ⟨h.started, h.connection, h.row⟩
  have hatx : (begin (c.handle y).core).At k a (c.subscriptions.find? a) :=
    have h := hy.at_other ⟨hp, hk, rfl⟩ hne
    ⟨h.started, h.connection, h.row⟩
  have hxy : (begin (c.handle x).core).Becomes b rowb esb ((c.handle x).core.handle y) :=
    hactsb _ haty
  have hyx : (begin (c.handle y).core).Becomes a rowa esa ((c.handle y).core.handle x) :=
    hacts _ hatx
  have hrows : ((c.handle x).core.handle y).core.subscriptions =
      ((c.handle y).core.handle x).core.subscriptions := by
    refine (hxy.sorted (hx.sorted hs)).ext (hyx.sorted (hy.sorted hs)) fun topic => ?_
    by_cases ha : topic = a
    · subst ha
      exact (hxy.others _ hne).trans (hx.row.trans hyx.row.symm)
    by_cases hb : topic = b
    · subst hb
      exact hxy.row.trans (hy.row.symm.trans (hyx.others _ ha).symm)
    · exact ((hxy.others _ hb).trans (hx.others _ ha)).trans
        ((hyx.others _ ha).trans (hy.others _ hb)).symm
  refine ⟨?_, ?_, ?_⟩
  · rw [hxy.core, hyx.core, hrows]
    simp only [core_begin]
    rw [hx.core, hy.core]
  · exact hyx.effects.trans hx.effects.symm
  · exact hxy.effects.trans hy.effects.symm

end Core

section Runs

variable {ℓ : Type} {past : List (Move ℓ)} {s : System ℓ}

def Call.topic? : Call → Option Topic
  | subscribe topic _ _ => some topic
  | unsubscribe topic _ => some topic
  | _ => none

def topicOf (past : List (Move ℓ)) (p : PromiseId) : Option Topic :=
  past.findSome? fun
    | .call _ call q => if q = p then call.topic? else none
    | _ => none

/-- The topic that an effect is for: that of the request, of the operation whose promise is
settled, or of the subscription whose listener is told of its end. -/
def Effect.topic? (past : List (Move ℓ)) : Effect → Option Topic
  | request (.subscribe _ params) => some params.topic
  | request (.unsubscribe _ topic _) => some topic
  | settle p _ => topicOf past p
  | notify (.unsubscribed _ topic _) => some topic
  | _ => none

theorem Effect.IsOn.topic? {e : Effect} {topic : Topic}
    (h : e.IsOn (fun p => topicOf past p = some topic) topic) : e.topic? past = some topic := by
  cases e with
  | request r => cases r <;> first | exact congrArg some h | cases h
  | settle p result => exact h
  | notify n => cases n <;> first | exact congrArg some h | cases h
  | _ => cases h

theorem Call.topic?_of_signal {call : Call} {p : PromiseId} {w : Work} {topic : Topic}
    (h : .work w = call.signal p) (hw : w.isOn topic) :
    w.promise = p ∧ call.topic? = some topic := by
  cases call with
  | send => cases h; cases hw
  | subscribe => cases h; exact ⟨rfl, by simpa [Work.isOn, Call.topic?] using hw⟩
  | unsubscribe => cases h; exact ⟨rfl, by simpa [Work.isOn, Call.topic?] using hw⟩
  | _ => cases h

namespace Reached

theorem topicOf_promise (h : Reached past s) {w : Work} {topic : Topic}
    (hw : Called past (.work w)) (ht : w.isOn topic) : topicOf past w.promise = some topic := by
  obtain ⟨seen, call, p, hcall, hx⟩ := hw
  obtain ⟨rfl, htopic⟩ := Call.topic?_of_signal hx ht
  cases hof : topicOf past w.promise with
  | none =>
    have hnone := List.findSome?_eq_none_iff.mp hof _ hcall
    simp [htopic] at hnone
  | some t =>
    obtain ⟨m, hm, hsome⟩ := List.exists_of_findSome?_eq_some hof
    cases m with
    | call seen' call' q =>
      simp only [Option.ite_none_right_eq_some] at hsome
      obtain ⟨rfl, ht'⟩ := hsome
      rw [h.given.unique _ _ _ _ _ hm hcall, htopic] at ht'
      exact ht'.symm
    | _ => cases hsome

/-- What a row of a started client has in hand was given for its topic. -/
theorem keeps (h : Reached past s) (hp : s.client.core.phase = .started) {topic : Topic}
    {row : Subscription} (hf : s.client.core.subscriptions.find? topic = some row) :
    row.Keeps (fun p => topicOf past p = some topic) topic := by
  obtain ⟨hrow, rfl⟩ := Subscriptions.find?_eq_some hf
  have hlive : s.client.core.phase.marks.rows = .live := by rw [hp]; rfl
  have hrows : ∀ row ∈ s.client.core.subscriptions, RowShape.live.Admits row :=
    hlive ▸ h.coherent.sound.tracking.shape
  have hstems := h.stemsFrom.rows row hrow
  refine ⟨rfl, (hrows row hrow).remaking, fun w hw => ?_, fun p hs => ?_, fun r hr => ?_⟩
  · obtain ⟨hon, hk⟩ := hstems.pending w hw
    exact ⟨hon, h.topicOf_promise (h.called_of_handled hk) hon⟩
  · obtain ⟨r, hparams, -, rfl, hk⟩ :=
      hstems.subscribing p (List.mem_append_left _ (Option.mem_toList.mpr hs))
    have hon : (Work.subscribe r).isOn row.topic := by
      simp [Work.isOn, Subscription.topic, hparams]
    exact h.topicOf_promise (h.called_of_handled hk) hon
  · obtain ⟨ht, hk⟩ := hstems.unsubscribing r hr
    exact h.topicOf_promise (h.called_of_handled hk) (by simp [Work.isOn, ht])

end Reached

/-- The signal is one that a client can be given: its work, if it is work, is from a call. -/
def Signal.IsGiven (past : List (Move ℓ)) (x : Signal) : Prop :=
  ∀ w, x = .work w → Called past x

def Core.effectsOfBoth (c : Core) (x y : Signal) : List Effect :=
  (c.handle x).effects ++ ((c.handle x).core.handle y).effects

/-- Operations and answers on different topics have nothing to do with one another. -/
structure Core.DestinationsApart (past : List (Move ℓ)) (c : Core) : Prop where
  commutes : ∀ x y a b, x.topic? = some a → y.topic? = some b → a ≠ b → c.Commutes x y
  /-- For each topic, the same effects come in the same order. -/
  sequences : ∀ x y a b, x.topic? = some a → y.topic? = some b → a ≠ b →
    x.IsGiven past → y.IsGiven past → ∀ topic,
      (c.effectsOfBoth x y).filter (·.topic? past = some topic) =
        (c.effectsOfBoth y x).filter (·.topic? past = some topic)
  /-- No effect is for another topic. -/
  effects : ∀ x a, x.topic? = some a → x.IsGiven past →
    ∀ e ∈ (c.handle x).effects, e.topic? past = some a
  /-- Nothing changes but the row of the topic. -/
  rows : ∀ x a, x.topic? = some a →
    (c.handle x).core = { c with subscriptions := (c.handle x).core.subscriptions } ∧
    ∀ other ≠ a, (c.handle x).core.subscriptions.find? other = c.subscriptions.find? other

theorem Reached.destinations_apart (h : Reached past s)
    (hp : s.client.core.phase = .started) : s.client.core.DestinationsApart past := by
  have hsound := h.coherent.sound
  obtain ⟨k, hk⟩ : ∃ k, s.client.core.connection = some k := by
    have hconnected : s.client.core.phase.marks.connected := by rw [hp]; rfl
    exact ⟨_, Control.connection_of_connected (t := Turn.begin _) hsound.control hconnected⟩
  have hfree (x : Signal) (a : Topic) (hx : x.topic? = some a) : Turn.ActsOn (fun _ => True) k a
      (s.client.core.subscriptions.find? a) (·.handle x) :=
    .handle hx (fun _ _ => trivial) fun _ hrow => (h.keeps hp hrow).mono fun _ _ => trivial
  have hcommutes (x y : Signal) (a b : Topic) (hx : x.topic? = some a) (hy : y.topic? = some b)
      (hne : a ≠ b) : s.client.core.Commutes x y :=
    .of_actsOn hp hk hsound.tracking.sorted hne (hfree x a hx) (hfree y b hy)
  have heffects (x : Signal) (a : Topic) (hx : x.topic? = some a) (hgiven : x.IsGiven past) :
      ∀ e ∈ (s.client.core.handle x).effects, e.topic? past = some a := by
    have hmine : ∀ w, x = .work w → topicOf past w.promise = some a := by
      rintro w rfl
      refine h.topicOf_promise (hgiven w rfl) ?_
      cases w <;> simp_all [Signal.topic?, Work.isOn]
    obtain ⟨row?, es, -, hes, hacts⟩ :=
      Turn.ActsOn.handle (k := k) hx hmine fun _ hrow => h.keeps hp hrow
    have hbecomes : (Turn.begin s.client.core).Becomes a row? es (s.client.core.handle x) :=
      hacts _ ⟨hp, hk, rfl⟩
    have hall : (s.client.core.handle x).effects = es := hbecomes.effects
    exact fun e he => (hes e (hall ▸ he)).topic?
  refine ⟨hcommutes, ?_, heffects, ?_⟩
  · intro x y a b hx hy hne hgx hgy topic
    have hc := hcommutes x y a b hx hy hne
    simp only [Core.effectsOfBoth, hc.first, hc.second, List.filter_append]
    have hnone {z : Signal} {t : Topic} (hz : z.topic? = some t) (hg : z.IsGiven past)
        (ht : t ≠ topic) :
        (s.client.core.handle z).effects.filter (·.topic? past = some topic) = [] := by
      rw [List.filter_eq_nil_iff]
      intro e he
      simp [heffects z t hz hg e he, ht]
    by_cases ha : a = topic
    · rw [hnone hy hgy fun hb => hne (ha.trans hb.symm), List.nil_append, List.append_nil]
    · rw [hnone hx hgx ha, List.nil_append, List.append_nil]
  · intro x a hx
    obtain ⟨row?, es, -, -, hacts⟩ := hfree x a hx
    have hbecomes : (Turn.begin s.client.core).Becomes a row? es (s.client.core.handle x) :=
      hacts _ ⟨hp, hk, rfl⟩
    exact ⟨hbecomes.core, hbecomes.others⟩

end Runs

/-- A run of a client that is subscribed to two topics. Behind an unsubscribe of one of them, which
is under way, a subscribe waits; an unsubscribe of the other one is asked for. -/
def unsubscribeBoth : List (Move Unit) :=
  let shared : Topic := ⟨"private:news", some "share"⟩
  let options : SubscribeOptions := { qos := .atLeastOnce, credit := 1, autoConfirm := false }
  let params : SubscribeParams :=
    { topic := ⟨"news", none⟩, qos := .atLeastOnce, credit := 1, autoConfirm := false
      ttlSeconds := 0 }
  subscribeShared ++ ([.call .started (.unsubscribe params.topic none) 3,
    .take (.work (.unsubscribe ⟨params.topic, false, 3⟩)),
    .perform (.request (.unsubscribe ⟨1⟩ params.topic false)),
    .call .started (.subscribe params.topic options 0) 4,
    .take (.work (.subscribe ⟨params, 0, 4⟩)), .answer (.unsubscribed ⟨1⟩ params.topic) (.ok ()),
    .call .started (.unsubscribe shared none) 5] : List (Move Unit))

set_option maxRecDepth 8000 in
theorem Reached.destinations_apart_unsubscribeBoth : ∃ s, Reached unsubscribeBoth s ∧
    s.client.core.phase = .started ∧
    s.client.mailbox.waiting = [.unsubscribed ⟨1⟩ ⟨"news", none⟩ (.ok ()),
      .work (.unsubscribe ⟨⟨"private:news", some "share"⟩, false, 5⟩)] ∧
    s.client.core.DestinationsApart unsubscribeBoth := by
  have hr : ∃ s, (System.new "" 1).run unsubscribeBoth = some s ∧
      s.client.core.phase = .started ∧
      s.client.mailbox.waiting = [.unsubscribed ⟨1⟩ ⟨"news", none⟩ (.ok ()),
        .work (.unsubscribe ⟨⟨"private:news", some "share"⟩, false, 5⟩)] := ⟨_, rfl, rfl, rfl⟩
  obtain ⟨s, hs, hp, hwaiting⟩ := hr
  exact ⟨s, ⟨"", 1, hs⟩, hp, hwaiting, Reached.destinations_apart ⟨"", 1, hs⟩ hp⟩

end PubSub
