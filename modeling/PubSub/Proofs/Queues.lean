import PubSub.Proofs.Sources

/-! # The operations on a topic

The operations of the application on one topic wait in the row of the topic or
in the kept work. They are decided from the front of what waits: asked of the
server, or answered by the client itself. An unsubscribe that a lost connection
interrupts goes back to the front.
-/

namespace PubSub

open Turn

namespace Issued

def Decides (i : Issued) : Work → Prop
  | .send _ => False
  | .subscribe r => (∃ k, i.effect = .request (.subscribe k r.params)) ∨
      i.effect = .settle r.promise (.error (.alreadySubscribed r.params.topic.address))
  | .unsubscribe r => (∃ k, i.effect = .request (.unsubscribe k r.topic r.zeroTtl)) ∨
      i.effect = .settle r.promise (.error (.notSubscribed r.topic.address))

/-- What is decided is known work, and it is decided in one of its ways. -/
def Fits (known : Work → Prop) (i : Issued) : Prop :=
  ∃ w, known w ∧ i.decided? = some w.promise ∧ i.Decides w

/-- The client answers that there is no subscription. -/
def isUnknown (i : Issued) : Bool :=
  match i.effect with
  | .settle _ (.error (.notSubscribed _)) => true
  | _ => false

end Issued

def Subscription.underWay (row : Subscription) : List PromiseId :=
  row.subscribing.toList ++ row.awaiting ++ (row.unsubscribing.map (·.promise)).toList

def operationsOn (topic : Topic) (ws : List Work) : List PromiseId :=
  (ws.filter (·.isOn topic)).map Work.promise

section OperationsOn

variable {topic other : Topic} {w : Work} {ws : List Work}

@[simp]
theorem operationsOn_append (topic : Topic) (ws vs : List Work) :
    operationsOn topic (ws ++ vs) = operationsOn topic ws ++ operationsOn topic vs := by
  rw [operationsOn, List.filter_append, List.map_append, operationsOn, operationsOn]

theorem Work.eq_of_isOn (h : w.isOn topic) (h' : w.isOn other) : topic = other := by
  cases w with
  | send r => cases h
  | subscribe r | unsubscribe r =>
    simp only [isOn, decide_eq_true_eq] at h h'
    exact h.symm.trans h'

theorem operationsOn_of_isOn (h : ∀ w ∈ ws, w.isOn topic) :
    operationsOn topic ws = ws.map Work.promise := by
  rw [operationsOn, List.filter_eq_self.mpr h]

theorem operationsOn_of_ne (h : ∀ w ∈ ws, w.isOn other) (hne : other ≠ topic) :
    operationsOn topic ws = [] := by
  rw [operationsOn, List.filter_eq_nil_iff.mpr, List.map_nil]
  exact fun w hw hon => hne (Work.eq_of_isOn (h w hw) hon)

end OperationsOn

/-- The operations on a topic that wait: those in its row come before those in the kept work. -/
def Core.waitingOn (topic : Topic) (c : Core) : List PromiseId :=
  ((c.subscriptions.find? topic).toList.flatMap (·.pending)).map Work.promise ++
    operationsOn topic c.pendingWork

@[ext]
structure Line where
  /-- There is a row for the topic. -/
  tracked : Bool
  waiting : List PromiseId
  underWay : List PromiseId
  /-- What has been issued to decide about them. -/
  decided : List Issued

namespace Line

variable {known : Work → Prop} {l l' l'' : Line} {ps qs : List PromiseId}

/-- While there is a row, the first decision is not that there is none. -/
def Remains (l l' : Line) : List Issued → Prop
  | [] => l.tracked → l'.tracked
  | i :: _ => l.tracked → i.isUnknown = false

theorem Remains.append {new new' : List Issued} (h : Remains l l' new) (h' : Remains l' l'' new') :
    Remains l l'' (new ++ new') := by
  cases new with
  | cons i new => exact h
  | nil =>
    cases new' with
    | nil => exact fun ht => h' (h ht)
    | cons i new' => exact fun ht => h' (h ht)

/-- Operations join the end of the line, and some from its front are decided. -/
def Takes (known : Work → Prop) (l l' : Line) (ps : List PromiseId) : Prop :=
  ∃ new, l'.decided = l.decided ++ new ∧
    new.filterMap Issued.decided? ++ l'.waiting = l.waiting ++ ps ∧
    (∀ i ∈ new, i.Fits known) ∧
    (∀ p ∈ l'.underWay, p ∈ l.underWay ∨ p ∈ new.filterMap Issued.decided?) ∧
    Remains l l' new

namespace Takes

theorem refl (l : Line) : Takes known l l [] := ⟨[], by simp, by simp, by simp, by simp, id⟩

theorem of_eq (h : l' = l) : Takes known l l' [] := by
  rw [h]
  exact refl l

theorem trans (h : Takes known l l' ps) (h' : Takes known l' l'' qs) :
    Takes known l l'' (ps ++ qs) := by
  obtain ⟨new, hd, hw, hf, hu, hr⟩ := h
  obtain ⟨new', hd', hw', hf', hu', hr'⟩ := h'
  refine ⟨new ++ new', by rw [hd', hd, List.append_assoc], ?_, ?_, ?_, hr.append hr'⟩
  · rw [List.filterMap_append, List.append_assoc, hw', ← List.append_assoc, hw, List.append_assoc]
  · exact fun i hi => (List.mem_append.mp hi).elim (hf i) (hf' i)
  · intro p hp
    rw [List.filterMap_append, List.mem_append]
    rcases hu' p hp with hp | hp
    · exact (hu p hp).imp id .inl
    · exact .inr (.inr hp)

theorem wait (hw : l'.waiting = l.waiting ++ ps) (hu : l'.underWay = l.underWay)
    (hd : l'.decided = l.decided) (ht : l.tracked → l'.tracked) : Takes known l l' ps :=
  ⟨[], by simp [hd], by simp [hw], by simp, by simp [hu], ht⟩

end Takes

end Line

namespace Turn

variable {t t' : Turn} {topic : Topic} {mine : PromiseId → Bool} {known : Work → Prop}
  {row : Subscription} {k : ConnectionId}

def line (topic : Topic) (mine : PromiseId → Bool) (t : Turn) : Line where
  tracked := (t.core.subscriptions.find? topic).isSome
  waiting := t.core.waitingOn topic
  underWay := (t.core.subscriptions.find? topic).toList.flatMap Subscription.underWay
  decided := t.issued.filter fun i => i.decided?.any mine

theorem line_emit (t : Turn) (e : Effect) : (t.emit e).line topic mine = { t.line topic mine with
    decided := (t.line topic mine).decided ++
      [Issued.mk e t.core].filter fun i => i.decided?.any mine } := by
  simp [line, emit]

theorem line_emit_of_none {e : Effect} (h : Issued.decided? ⟨e, t.core⟩ = none) :
    (t.emit e).line topic mine = t.line topic mine := by
  simp [line_emit, h]

theorem line_emit_of_not {e : Effect} {p : PromiseId}
    (h : Issued.decided? ⟨e, t.core⟩ = some p) (hp : mine p = false) :
    (t.emit e).line topic mine = t.line topic mine := by
  simp [line_emit, h, hp]

theorem Leaves.line (h : t.Leaves t') : t'.line topic mine = t.line topic mine := by
  obtain ⟨more, hi, hm⟩ := h.issued
  have hnone : more.filter (fun i => i.decided?.any mine) = [] := by
    rw [List.filter_eq_nil_iff]
    exact fun i hmem => by simp [(Issued.isOfLoad_eq_false.mp (hm i hmem)).2]
  have hwork : t'.core.pendingWork = t.core.pendingWork := congrArg Load.pendingWork h.load
  have hrows : t'.core.subscriptions = t.core.subscriptions := congrArg Load.subscriptions h.load
  simp [Turn.line, Core.waitingOn, hi, hnone, hwork, hrows]

/-- Effects that decide nothing leave what has been decided. -/
theorem Extends.decided (h : t.Extends t') {es : List Effect} (he : t'.effects = t.effects ++ es)
    (hes : ∀ e ∈ es, ∀ c, Issued.decided? ⟨e, c⟩ = none) :
    (t'.line topic mine).decided = (t.line topic mine).decided := by
  obtain ⟨more, hi, rfl⟩ := h.issued he
  have hnone : more.filter (fun i => i.decided?.any mine) = [] := by
    rw [List.filter_eq_nil_iff]
    intro i hmem
    rw [hes i.effect (List.mem_map_of_mem hmem) i.core]
    exact nofun
  simp only [Turn.line, hi, List.filter_append, hnone, List.append_nil]

theorem line_putRow_of_ne (h : row.topic ≠ topic) :
    (t.putRow row).line topic mine = t.line topic mine := by
  simp [line, Core.waitingOn, Subscriptions.find?_put, h, putRow, update]

theorem line_eraseRow_of_ne {other : Topic} (h : other ≠ topic) :
    (t.eraseRow other).line topic mine = t.line topic mine := by
  simp [line, Core.waitingOn, Subscriptions.find?_erase, h.symm, eraseRow, update]

theorem find?_putRow (t : Turn) (row : Subscription) (h : row.topic = topic) :
    (t.putRow row).core.subscriptions.find? topic = some row := by
  rw [core_putRow, Subscriptions.find?_put, if_pos h]

theorem find?_eraseRow (t : Turn) (topic : Topic) :
    (t.eraseRow topic).core.subscriptions.find? topic = none := by
  rw [core_eraseRow, Subscriptions.find?_erase, if_pos rfl]

section Row

variable (mine)

theorem tracked_of_none (h : t.core.subscriptions.find? topic = none) :
    (t.line topic mine).tracked = false := by
  simp [line, Core.waitingOn, h]

theorem waiting_of_none (h : t.core.subscriptions.find? topic = none) :
    (t.line topic mine).waiting = operationsOn topic t.core.pendingWork := by
  simp [line, Core.waitingOn, h]

theorem underWay_of_none (h : t.core.subscriptions.find? topic = none) :
    (t.line topic mine).underWay = [] := by
  simp [line, Core.waitingOn, h]

theorem tracked_of_some (h : t.core.subscriptions.find? topic = some row) :
    (t.line topic mine).tracked = true := by
  simp [line, Core.waitingOn, h]

theorem waiting_of_some (h : t.core.subscriptions.find? topic = some row) :
    (t.line topic mine).waiting =
      row.pending.map Work.promise ++ operationsOn topic t.core.pendingWork := by
  simp [line, Core.waitingOn, h]

theorem underWay_of_some (h : t.core.subscriptions.find? topic = some row) :
    (t.line topic mine).underWay = row.underWay := by
  simp [line, Core.waitingOn, h]

theorem tracked_putRow (h : row.topic = topic) : ((t.putRow row).line topic mine).tracked = true :=
  tracked_of_some mine (find?_putRow t row h)

theorem waiting_putRow (h : row.topic = topic) : ((t.putRow row).line topic mine).waiting =
    row.pending.map Work.promise ++ operationsOn topic t.core.pendingWork :=
  waiting_of_some mine (find?_putRow t row h)

theorem underWay_putRow (h : row.topic = topic) :
    ((t.putRow row).line topic mine).underWay = row.underWay :=
  underWay_of_some mine (find?_putRow t row h)

end Row

theorem line_putRow_same {row' : Subscription} (hf : t.core.subscriptions.find? row.topic = some row)
    (ht : row'.topic = row.topic) (hp : row'.pending = row.pending)
    (hu : row'.underWay = row.underWay) :
    (t.putRow row').line topic mine = t.line topic mine := by
  by_cases h : row.topic = topic
  · subst h
    apply Line.ext
    · rw [tracked_putRow mine ht, tracked_of_some mine hf]
    · rw [waiting_putRow mine ht, waiting_of_some mine hf, hp]
    · rw [underWay_putRow mine ht, underWay_of_some mine hf, hu]
    · rfl
  · exact line_putRow_of_ne (ht ▸ h)

section Work

variable {l : Line} {p : PromiseId} {e : Effect}

/-- With nothing before it, an operation is decided. -/
theorem takes_emit (hl : l.waiting = []) (hd : Issued.decided? ⟨e, t.core⟩ = some p) (hp : mine p)
    (hdecided : (t.line topic mine).decided = l.decided) (hw : (t.line topic mine).waiting = [])
    (hu : ∀ q ∈ (t.line topic mine).underWay, q ∈ l.underWay ∨ q = p)
    (hf : Issued.Fits known ⟨e, t.core⟩) (hr : l.tracked → Issued.isUnknown ⟨e, t.core⟩ = false) :
    l.Takes known ((t.emit e).line topic mine) [p] := by
  refine ⟨[⟨e, t.core⟩], ?_, ?_, by simpa using hf, fun q hq => ?_, hr⟩
  · simp [line_emit, hdecided, hd, hp]
  · simp [line_emit, hd, hl, hw]
  · simpa [hd] using hu q hq

/-- A subscribe for a new row decides about the operation that made the row. -/
theorem decided?_subscribe_new (t : Turn) (k : ConnectionId) (r : SubscribeRequest) :
    Issued.decided? ⟨.request (.subscribe k r.params), (t.putRow (.new r)).core⟩ =
      some r.promise := by
  have hrow : (t.putRow (.new r)).core.subscriptions.find? r.params.topic = some (.new r) :=
    find?_putRow t (.new r) rfl
  simp only [Issued.decided?, hrow]
  rfl

/-- An unsubscribe decides about the operation that its row is busy with. -/
theorem decided?_unsubscribe_put (t : Turn) (k : ConnectionId) {r : UnsubscribeRequest}
    (hrow : row.topic = r.topic) (hr : row.unsubscribing = some r) :
    Issued.decided? ⟨.request (.unsubscribe k r.topic r.zeroTtl), (t.putRow row).core⟩ =
      some r.promise := by
  simp only [Issued.decided?, find?_putRow t row hrow, Option.bind_some, hr, Option.map_some]

theorem pendingWork_execute (hk : t.core.connection = some k) (w : Work) :
    (t.execute w).core.pendingWork = t.core.pendingWork := by
  unfold execute
  rw [hk]
  cases w with
  | send r => rfl
  | subscribe r =>
    simp only [executeSubscribe]
    split
    · rfl
    · split <;> rfl
  | unsubscribe r =>
    simp only [executeUnsubscribe]
    split
    · rfl
    · split <;> rfl

theorem takes_append (hf : t.core.subscriptions.find? topic = some row)
    (hidle : operationsOn topic t.core.pendingWork = []) (w : Work) :
    (t.line topic mine).Takes known
      ((t.putRow { row with pending := row.pending ++ [w] }).line topic mine) [w.promise] := by
  have ht : Subscription.topic { row with pending := row.pending ++ [w] } = topic :=
    (Subscriptions.find?_eq_some hf).2
  refine .wait ?_ ?_ rfl fun _ => tracked_putRow mine ht
  · rw [waiting_putRow mine ht, waiting_of_some mine hf, hidle]
    simp
  · rw [underWay_putRow mine ht, underWay_of_some mine hf]
    rfl

variable (hmine : ∀ w, known w → mine w.promise = w.isOn topic)
include hmine

theorem line_execute_of_not_isOn (hp : t.core.phase = .started) (hk : t.core.connection = some k)
    {w : Work} (hw : known w) (hon : w.isOn topic = false) :
    (t.execute w).line topic mine = t.line topic mine := by
  have hm : mine w.promise = false := (hmine w hw).trans hon
  cases w with
  | send r =>
    simp only [execute, hk]
    let t' : Turn := t.update fun c =>
      { c with sends := c.sends + 1, outstanding := c.outstanding ++ [⟨c.sends + 1, k, r⟩] }
    have hnone : Issued.decided? ⟨.request (.send k (t.core.sends + 1) r.message), t'.core⟩ = none :=
      rfl
    exact line_emit_of_none hnone
  | subscribe r =>
    have hne : r.params.topic ≠ topic := of_decide_eq_false hon
    simp only [execute, hk, executeSubscribe]
    split
    · exact (line_emit_of_not (decided?_subscribe_new t k r) hm).trans (line_putRow_of_ne hne)
    · next row hf =>
      split
      · exact line_emit_of_not (if_pos hp) hm
      · exact line_putRow_of_ne ((Subscriptions.find?_eq_some hf).2.symm ▸ hne)
  | unsubscribe r =>
    have hne : r.topic ≠ topic := of_decide_eq_false hon
    simp only [execute, hk, executeUnsubscribe]
    split
    · exact line_emit_of_not (if_pos hp) hm
    · next row hf =>
      have hrow : Subscription.topic { row with state := .detaching, unsubscribing := some r } =
        r.topic := (Subscriptions.find?_eq_some hf).2
      have hrow' : row.topic ≠ topic := fun he => hne (hrow.symm.trans he)
      split
      · exact (line_emit_of_not (decided?_unsubscribe_put t k hrow rfl) hm).trans
          (line_putRow_of_ne hrow')
      · exact line_putRow_of_ne hrow'

theorem takes_executeSubscribe (hp : t.core.phase = .started)
    (hidle : operationsOn topic t.core.pendingWork = []) {r : SubscribeRequest}
    (hr : known (.subscribe r)) (hon : r.params.topic = topic) :
    (t.line topic mine).Takes known ((t.executeSubscribe k r).line topic mine) [r.promise] := by
  subst hon
  have hnew : (Subscription.new r).topic = r.params.topic := rfl
  have hm : mine r.promise := (hmine _ hr).trans (by simp [Work.isOn])
  unfold executeSubscribe
  split
  · next hf =>
    have hasked := decided?_subscribe_new t k r
    refine takes_emit ((waiting_of_none mine hf).trans hidle) hasked hm rfl
      ((waiting_putRow mine hnew).trans hidle) ?_ ⟨_, hr, hasked, .inl ⟨k, rfl⟩⟩ fun _ => rfl
    rw [underWay_putRow mine hnew]
    exact fun q hq => .inr (List.mem_singleton.mp hq)
  · next row hf =>
    split
    · next hfree =>
      have hanswered : Issued.decided? ⟨.settle r.promise
          (.error (.alreadySubscribed r.params.topic.address)), t.core⟩ = some r.promise := if_pos hp
      have hpending : row.pending = [] := by
        simp only [Subscription.isIdle, Bool.and_eq_true, List.isEmpty_iff] at hfree
        exact hfree.1
      have hw : (t.line r.params.topic mine).waiting = [] := by
        rw [waiting_of_some mine hf, hpending, hidle]
        rfl
      exact takes_emit hw hanswered hm rfl hw (fun q => .inl) ⟨_, hr, hanswered, .inr rfl⟩
        fun _ => rfl
    · exact takes_append hf hidle (.subscribe r)

theorem takes_executeUnsubscribe (hp : t.core.phase = .started)
    (hidle : operationsOn topic t.core.pendingWork = []) {r : UnsubscribeRequest}
    (hr : known (.unsubscribe r)) (hon : r.topic = topic) :
    (t.line topic mine).Takes known ((t.executeUnsubscribe k r).line topic mine) [r.promise] := by
  subst hon
  have hm : mine r.promise := (hmine _ hr).trans (by simp [Work.isOn])
  unfold executeUnsubscribe
  split
  · next hf =>
    have hanswered : Issued.decided? ⟨.settle r.promise
        (.error (.notSubscribed r.topic.address)), t.core⟩ = some r.promise := if_pos hp
    have hw := (waiting_of_none mine hf).trans hidle
    refine takes_emit hw hanswered hm rfl hw (fun q => .inl) ⟨_, hr, hanswered, .inr rfl⟩ ?_
    simp [tracked_of_none mine hf]
  · next row hf =>
    have hrow : Subscription.topic { row with state := .detaching, unsubscribing := some r } =
      r.topic := (Subscriptions.find?_eq_some hf).2
    split
    · next hfree =>
      have hnone : row.pending.map Work.promise ++ operationsOn r.topic t.core.pendingWork = [] := by
        rw [List.isEmpty_iff.mp hfree.2, hidle]
        rfl
      have hasked := decided?_unsubscribe_put t k hrow rfl
      refine takes_emit ((waiting_of_some mine hf).trans hnone) hasked hm rfl
        ((waiting_putRow mine hrow).trans hnone) ?_ ⟨_, hr, hasked, .inl ⟨k, rfl⟩⟩ fun _ => rfl
      rw [underWay_putRow mine hrow, underWay_of_some mine hf]
      intro q hq
      simp only [Subscription.underWay, List.mem_append, Option.map_some,
        Option.toList_some, List.mem_singleton] at hq ⊢
      exact hq.imp .inl id
    · exact takes_append hf hidle (.unsubscribe r)

theorem takes_execute (hp : t.core.phase = .started) (hk : t.core.connection = some k)
    (hidle : operationsOn topic t.core.pendingWork = []) {w : Work} (hw : known w) :
    (t.line topic mine).Takes known ((t.execute w).line topic mine) (operationsOn topic [w]) := by
  cases hon : w.isOn topic with
  | false =>
    have harrives : operationsOn topic [w] = [] := by simp [operationsOn, hon]
    rw [harrives]
    exact .of_eq (line_execute_of_not_isOn hmine hp hk hw hon)
  | true =>
    have harrives : operationsOn topic [w] = [w.promise] := by simp [operationsOn, hon]
    rw [harrives]
    cases w with
    | send r => cases hon
    | subscribe r =>
      simp only [execute, hk]
      exact takes_executeSubscribe hmine hp hidle hw (of_decide_eq_true hon)
    | unsubscribe r =>
      simp only [execute, hk]
      exact takes_executeUnsubscribe hmine hp hidle hw (of_decide_eq_true hon)

theorem takes_replay (hp : t.core.phase = .started) (hk : t.core.connection = some k)
    (hidle : operationsOn topic t.core.pendingWork = []) {ws : List Work}
    (hws : ∀ w ∈ ws, known w) :
    (t.line topic mine).Takes known ((t.replay ws).line topic mine) (operationsOn topic ws) := by
  induction ws generalizing t with
  | nil => exact .refl _
  | cons w ws ih =>
    have hsplit : operationsOn topic (w :: ws) = operationsOn topic [w] ++ operationsOn topic ws :=
      operationsOn_append topic [w] ws
    have hw := takes_execute hmine hp hk hidle (hws w (List.mem_cons_self ..))
    have hcourse := (stays_onWork t w).course
    have hp' : (t.onWork w).core.phase = .started := (congrArg Course.phase hcourse).trans hp
    have hk' : (t.onWork w).core.connection = some k := (congrArg Course.connection hcourse).trans hk
    rw [hsplit]
    rw [← onWork_of_started hp] at hw
    refine hw.trans (ih hp' hk' ?_ fun v hv => hws v (List.mem_cons_of_mem _ hv))
    rw [onWork_of_started hp, pendingWork_execute hk, hidle]

end Work

end Turn

end PubSub
