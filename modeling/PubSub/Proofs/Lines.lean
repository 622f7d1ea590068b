import PubSub.Proofs.Answers
import PubSub.Proofs.Queues

/-! # What a turn does to the line of a topic

Every turn serves the line of a topic from the front, lets it rest, puts back
what a lost connection interrupts, or ends it with the session.
-/

namespace PubSub

open Turn

def Signal.work? : Signal → Option Work
  | work w => some w
  | _ => none

theorem Signal.work?_of_isPlain {x : Signal} (hx : x.isPlain) : x.work? = none := by
  cases x with
  | work | sent | subscribed | unsubscribed => cases hx
  | _ => rfl

def Core.FailsRenewal (c : Core) (topic : Topic) (x : Signal) : Prop :=
  ∃ k e row, x = .subscribed k topic (.error e) ∧ c.connection = some k ∧
    c.subscriptions.find? topic = some row ∧ row.remaking

namespace Line

variable {known : Work → Prop} {topic : Topic} {c : Core} {x : Signal} {l l' : Line}

/-- What the turn of a signal does to the line of a topic. -/
inductive Moves (known : Work → Prop) (topic : Topic) (c : Core) (x : Signal) (l l' : Line) : Prop
  /-- After the answers for operations under way, operations from the front are decided. -/
  | serves (old new : List Issued) (decided : l'.decided = l.decided ++ (old ++ new))
    (answers : ∀ i ∈ old, ∃ p ∈ l.underWay, i.decided? = some p)
    (waiting : new.filterMap Issued.decided? ++ l'.waiting =
      l.waiting ++ operationsOn topic x.work?.toList)
    (fits : ∀ i ∈ new, i.Fits known)
    (underWay : ∀ p ∈ l'.underWay, p ∈ l.underWay ∨ p ∈ new.filterMap Issued.decided?)
    (remains : l.underWay = [] → ¬ c.FailsRenewal topic x → Remains l l' new)
  /-- Work is turned down. -/
  | refuses (eq : l' = l)
  /-- What was under way is put back to the front. -/
  | breaks {front : List PromiseId} (tracked : l'.tracked = l.tracked)
    (decided : l'.decided = l.decided) (interrupted : ∀ p ∈ front, p ∈ l.underWay)
    (waiting : l'.waiting = front ++ l.waiting) (underWay : ∀ p ∈ l'.underWay, p ∈ l.underWay)
    (plain : x.work? = none)
  | ends {t : Turn} (cleanup : c.Performs x .cleanup t) (decided : l'.decided = l.decided)
    (waiting : l'.waiting = []) (underWay : l'.underWay = [])

namespace Moves

theorem of_takes (h : l.Takes known l' (operationsOn topic x.work?.toList)) :
    Moves known topic c x l l' := by
  obtain ⟨new, hd, hw, hf, hu, hr⟩ := h
  exact .serves [] new hd (List.forall_mem_nil _) hw hf hu fun _ _ => hr

theorem rests (hx : x.work? = none) (hd : l'.decided = l.decided) (hw : l'.waiting = l.waiting)
    (hu : ∀ p ∈ l'.underWay, p ∈ l.underWay)
    (hr : ¬ c.FailsRenewal topic x → l.tracked → l'.tracked) : Moves known topic c x l l' := by
  refine .serves [] [] ?_ (List.forall_mem_nil _) ?_ (List.forall_mem_nil _)
    (fun p hp => .inl (hu p hp)) fun _ => hr
  · rw [hd, List.append_nil, List.append_nil]
  · rw [hw, hx]
    exact (List.append_nil _).symm

theorem of_eq (hx : x.work? = none) (h : l' = l) : Moves known topic c x l l' :=
  rests hx (h ▸ rfl) (h ▸ rfl) (fun _ hp => h ▸ hp) fun _ ht => h ▸ ht

end Moves

end Line

namespace Subscription.StemsFrom

variable {known : Work → Prop} {row : Subscription}

theorem underWay (h : row.StemsFrom known) :
    ∀ p ∈ row.underWay, ∃ w, w.isOn row.topic ∧ w.promise = p ∧ known w := by
  intro p hp
  rcases List.mem_append.mp hp with hp | hp
  · obtain ⟨r, hparams, -, hr, hw⟩ := h.subscribing p hp
    exact ⟨.subscribe r, by simp [Work.isOn, Subscription.topic, hparams], hr, hw⟩
  · obtain ⟨r, hr, rfl⟩ := Option.map_eq_some_iff.mp (Option.mem_toList.mp hp)
    obtain ⟨ht, hw⟩ := h.unsubscribing r hr
    exact ⟨.unsubscribe r, by simp [Work.isOn, ht], rfl, hw⟩

end Subscription.StemsFrom

namespace Turn

variable {t t' : Turn} {topic : Topic} {mine : PromiseId → Bool} {known : Work → Prop}
  {row : Subscription} {k : ConnectionId} {result : Outcome} {c : Core} {x : Signal}

theorem line_remakeSettled (t : Turn) :
    t.remakeSettled.line topic mine = t.line topic mine := by
  simp only [remakeSettled]
  split
  · have hnone : Issued.decided? ⟨.post .subscriptionsRemade, (t.update fun c =>
        { c with remakesOutstanding := c.remakesOutstanding - 1 }).core⟩ = none := rfl
    exact line_emit_of_none hnone
  · rfl

theorem line_notify (t : Turn) (n : Notification) :
    (t.notify n).line topic mine = t.line topic mine := line_emit_of_none rfl

theorem line_settleAll_of_none (ps : List PromiseId)
    (hr : ∀ p, Issued.decided? ⟨.settle p result, t.core⟩ = none) :
    (t.settleAll ps result).line topic mine = t.line topic mine :=
  ((Leaves.refl t).settleAll ps hr).line

theorem line_settleAll (topic : Topic) (mine : PromiseId → Bool) (t : Turn) (ps : List PromiseId)
    (result : Outcome) : ∃ old,
    (t.settleAll ps result).line topic mine = { t.line topic mine with
      decided := (t.line topic mine).decided ++ old } ∧
    ∀ i ∈ old, ∃ p ∈ ps, mine p ∧ i.decided? = some p := by
  induction ps generalizing t with
  | nil => exact ⟨[], by simp [settleAll], by simp⟩
  | cons p ps ih =>
    obtain ⟨old, hl, hold⟩ := ih (t.settle result p)
    have hdecided : ∀ q, Issued.decided? ⟨.settle p result, t.core⟩ = some q → q = p := by
      intro q hq
      unfold Issued.decided? at hq
      split at hq <;> simp_all
    refine ⟨([⟨.settle p result, t.core⟩] : List Issued).filter (fun i => i.decided?.any mine) ++ old,
      ?_, ?_⟩
    · have hstep : (t.settle result p).line topic mine = _ := line_emit t (.settle p result)
      rw [settleAll, List.foldl_cons]
      refine hl.trans ?_
      rw [hstep]
      simp
    · intro i hi
      rcases List.mem_append.mp hi with hi | hi
      · obtain ⟨hi, hm⟩ := List.mem_filter.mp hi
        obtain rfl := List.mem_singleton.mp hi
        obtain ⟨q, hq, hmine⟩ := (Option.any_eq_true _ _).mp hm
        obtain rfl := hdecided q hq
        exact ⟨q, List.mem_cons_self .., hmine, hq⟩
      · obtain ⟨q, hq, hm⟩ := hold i hi
        exact ⟨q, List.mem_cons_of_mem _ hq, hm⟩

section Answers

theorem line_onSubscribedStopping (hf : t.core.subscriptions.find? row.topic = some row) :
    (t.onSubscribedStopping row).line topic mine = t.line topic mine := by
  unfold onSubscribedStopping
  split
  · rw [line_remakeSettled]
    exact line_putRow_same hf rfl rfl rfl
  · rfl

theorem line_onSent (t : Turn) (k : ConnectionId) (id : Nat) (result : Outcome) :
    (t.onSent k id result).line topic mine = t.line topic mine := by
  unfold onSent
  split
  · rfl
  · split_ifs
    · rfl
    · rfl
    · next send _ _ _ =>
      have hnone : Issued.decided? ⟨.finishSend send.request.promise result, (t.update fun c =>
        { c with outstanding := c.outstanding.filter (·.id ≠ id) }).core⟩ = none := rfl
      exact line_emit_of_none hnone

/-- A row has no operations that wait while it is renewed, and what it has under way ends. -/
theorem moves_onRemade (hk : c.connection = some k)
    (hf : c.subscriptions.find? row.topic = some row) (hp : c.phase ≠ .started)
    (hr : row.remaking) (hpending : row.pending = []) :
    Line.Moves known topic c (.subscribed k row.topic result) ((begin c).line topic mine)
      (((begin c).onRemade row result).line topic mine) := by
  have hsettle (t : Turn) (ht : t.core.phase = c.phase) (ps : List PromiseId) :
      (t.settleAll ps result).line topic mine = t.line topic mine :=
    line_settleAll_of_none ps fun p => Issued.decided?_settle (ht ▸ hp) p result
  have hf' : (begin c).core.subscriptions.find? row.topic = some row := hf
  cases result with
  | ok =>
    simp only [onRemade, line_remakeSettled]
    rw [hsettle (.putRow ..) rfl]
    by_cases h : row.topic = topic
    · subst h
      have ht : Subscription.topic { row with
        state := .established, establishedOnce := true, remaking := false, awaiting := [] } =
          row.topic := rfl
      refine .rests rfl rfl ?_ ?_ fun _ _ => tracked_putRow mine ht
      · rw [waiting_putRow mine ht, waiting_of_some mine hf']
      · rw [underWay_putRow mine ht, underWay_of_some mine hf']
        intro p hm
        simp only [Subscription.underWay, List.append_nil, List.mem_append] at hm ⊢
        exact hm.imp .inl id
    · exact .of_eq rfl (line_putRow_of_ne h)
  | error e =>
    simp only [onRemade, line_remakeSettled, line_notify]
    rw [hsettle (.eraseRow ..) rfl]
    by_cases h : row.topic = topic
    · subst h
      have hnone := find?_eraseRow (begin c) row.topic
      refine .rests rfl rfl ?_ ?_ fun hfails => ?_
      · rw [waiting_of_none mine hnone, waiting_of_some mine hf', hpending]
        rfl
      · rw [underWay_of_none mine hnone]
        exact List.forall_mem_nil _
      · exact absurd ⟨k, e, row, rfl, hk, hf, hr⟩ hfails
    · exact .of_eq rfl (line_eraseRow_of_ne h)

section Replay

variable (hmine : ∀ w, known w → mine w.promise = w.isOn topic)
  (hp : c.phase = .started) (hk : c.connection = some k) (hidle : c.pendingWork = [])
  (hf : c.subscriptions.find? row.topic = some row) (hrow : row.StemsFrom known)
  (hx : x.work? = none)
include hmine hp hk hidle hf hrow hx

theorem moves_replay {u : Turn} {ps : List PromiseId} (ht : t.core.course = c.course)
    (hwork : t.core.pendingWork = c.pendingWork)
    (hdecided : (t.line topic mine).decided = ((begin c).line topic mine).decided)
    (hother : row.topic ≠ topic → t.line topic mine = (begin c).line topic mine)
    (hwaiting : row.topic = topic → (t.line topic mine).waiting = [])
    (hunder : row.topic = topic → ∀ p ∈ (t.line topic mine).underWay, p ∈ row.underWay)
    (hps : ∀ p ∈ ps, p ∈ row.underWay) (hsome : row.underWay ≠ []) (hu : u.core = t.core)
    (hline : u.line topic mine = (t.settleAll ps result).line topic mine) :
    Line.Moves known topic c x ((begin c).line topic mine)
      ((u.replay row.pending).line topic mine) := by
  obtain ⟨old, hsettled, hold⟩ := line_settleAll topic mine t ps result
  have hp' : u.core.phase = .started := by
    rw [hu]
    exact (congrArg Course.phase ht).trans hp
  have hk' : u.core.connection = some k := by
    rw [hu]
    exact (congrArg Course.connection ht).trans hk
  have hidle' : operationsOn topic u.core.pendingWork = [] := by
    rw [hu, hwork, hidle]
    rfl
  have htakes := takes_replay hmine hp' hk' hidle' fun w hw => (hrow.pending w hw).2
  rw [hline, hsettled] at htakes
  by_cases h : row.topic = topic
  · subst h
    obtain ⟨new, hd, hw, hfits, hu, -⟩ := htakes
    have hf' : (begin c).core.subscriptions.find? row.topic = some row := hf
    have hunder' := underWay_of_some mine hf'
    refine .serves old new ?_ ?_ ?_ hfits ?_ fun hnone => ?_
    · rw [hd, hdecided, List.append_assoc]
    · intro i hi
      obtain ⟨p, hp, -, he⟩ := hold i hi
      exact ⟨p, hunder' ▸ hps p hp, he⟩
    · rw [hw, hwaiting rfl, waiting_of_some mine hf',
        operationsOn_of_isOn fun w hw => (hrow.pending w hw).1, hx, core_begin, hidle]
      simp [operationsOn]
    · exact fun p hm => (hu p hm).imp (fun hm => hunder' ▸ hunder rfl p hm) id
    · exact absurd (hunder'.symm.trans hnone) hsome
  · -- Neither what is answered nor what is done again is on this topic.
    have hnone : old = [] := by
      rw [List.eq_nil_iff_forall_not_mem]
      intro i hi
      obtain ⟨p, hp, hm, -⟩ := hold i hi
      obtain ⟨w, hon, rfl, hw⟩ := hrow.underWay p (hps p hp)
      rw [hmine w hw] at hm
      exact h (Work.eq_of_isOn hon hm)
    rw [operationsOn_of_ne (fun w hw => (hrow.pending w hw).1) h, hother h, hnone,
      List.append_nil] at htakes
    refine .of_takes ?_
    rw [hx]
    exact htakes

theorem moves_putRow_replay {row' : Subscription} {u : Turn} {ps : List PromiseId}
    (ht : row'.topic = row.topic) (hpending : row'.pending = [])
    (hunder : ∀ p ∈ row'.underWay, p ∈ row.underWay) (hps : ∀ p ∈ ps, p ∈ row.underWay)
    (hsome : row.underWay ≠ []) (hu : u.core = ((begin c).putRow row').core)
    (hline : u.line topic mine = (((begin c).putRow row').settleAll ps result).line topic mine) :
    Line.Moves known topic c x ((begin c).line topic mine)
      ((u.replay row.pending).line topic mine) := by
  refine moves_replay hmine hp hk hidle hf hrow hx (t := (begin c).putRow row') rfl rfl rfl
    (fun h => line_putRow_of_ne (ht ▸ h)) ?_ ?_ hps hsome hu hline
  · rintro rfl
    rw [waiting_putRow mine ht, hpending, core_begin, hidle]
    rfl
  · rintro rfl p hm
    rw [underWay_putRow mine ht] at hm
    exact hunder p hm

theorem moves_eraseRow_replay {u : Turn} {ps : List PromiseId} (hps : ∀ p ∈ ps, p ∈ row.underWay)
    (hsome : row.underWay ≠ []) (hu : u.core = ((begin c).eraseRow row.topic).core)
    (hline : u.line topic mine =
      (((begin c).eraseRow row.topic).settleAll ps result).line topic mine) :
    Line.Moves known topic c x ((begin c).line topic mine)
      ((u.replay row.pending).line topic mine) := by
  have hnone := find?_eraseRow (begin c) row.topic
  refine moves_replay hmine hp hk hidle hf hrow hx (t := (begin c).eraseRow row.topic) rfl rfl rfl
    (fun h => line_eraseRow_of_ne h) ?_ ?_ hps hsome hu hline
  · rintro rfl
    rw [waiting_of_none mine hnone, core_eraseRow, core_begin, hidle]
    rfl
  · rintro rfl p hm
    rw [underWay_of_none mine hnone] at hm
    cases hm

theorem moves_onAttached (hattaching : row.Attaching) :
    Line.Moves known topic c x ((begin c).line topic mine)
      (((begin c).onAttached row result).line topic mine) := by
  have hps : ∀ p ∈ row.subscribing.toList, p ∈ row.underWay := fun p hm =>
    List.mem_append_left _ (List.mem_append_left _ hm)
  have hsome : row.underWay ≠ [] := by
    obtain ⟨p, hp⟩ := Option.isSome_iff_exists.mp hattaching.subscribing
    exact List.ne_nil_of_mem (hps p (by simp [hp]))
  cases result with
  | ok =>
    let row' : Subscription :=
      { row with state := .established, establishedOnce := true, subscribing := none, pending := [] }
    have ht : row'.topic = row.topic := rfl
    have hunder : ∀ p ∈ row'.underWay, p ∈ row.underWay := by
      intro p hm
      simp only [row', Subscription.underWay, Option.toList_none, List.nil_append,
        List.mem_append] at hm ⊢
      exact hm.imp .inr id
    exact moves_putRow_replay hmine hp hk hidle hf hrow hx ht rfl hunder hps hsome
      (core_settleAll ..) rfl
  | error e =>
    exact moves_eraseRow_replay hmine hp hk hidle hf hrow hx hps hsome (core_settleAll ..) rfl

theorem moves_onDetached (hdetaching : row.Detaching) :
    Line.Moves known topic c x ((begin c).line topic mine)
      (((begin c).onDetached row result).line topic mine) := by
  have hps : ∀ p ∈ (row.unsubscribing.map (·.promise)).toList, p ∈ row.underWay := fun p hm =>
    List.mem_append_right _ hm
  have hsome : row.underWay ≠ [] := by
    obtain ⟨r, hr⟩ := Option.isSome_iff_exists.mp hdetaching.unsubscribing
    exact List.ne_nil_of_mem (hps r.promise (by simp [hr]))
  cases result with
  | ok =>
    exact moves_eraseRow_replay hmine hp hk hidle hf hrow hx hps hsome (core_settleAll ..)
      (line_notify ..)
  | error e =>
    let row' : Subscription :=
      { row with state := .established, unsubscribing := none, pending := [] }
    have ht : row'.topic = row.topic := rfl
    have hunder : ∀ p ∈ row'.underWay, p ∈ row.underWay := fun p hm =>
      List.mem_append_left _ (by simpa [row', Subscription.underWay] using hm)
    exact moves_putRow_replay hmine hp hk hidle hf hrow hx ht rfl hunder hps hsome
      (core_settleAll ..) rfl

end Replay

theorem moves_onWork (hmine : ∀ w, known w → mine w.promise = w.isOn topic)
    (hstarted : c.phase = .started → (∃ k, c.connection = some k) ∧ c.pendingWork = []) {w : Work}
    (hw : known w) :
    Line.Moves known topic c (.work w) ((begin c).line topic mine)
      (((begin c).onWork w).line topic mine) := by
  cases hpolicy : c.phase.view.work with
  | reject =>
    refine .refuses ?_
    simp only [onWork, core_begin, hpolicy]
    cases w with
    | send r | subscribe r | unsubscribe r => exact line_emit_of_none rfl
  | queue =>
    refine .of_takes (.wait ?_ ?_ ?_ ?_)
    · simp only [onWork, core_begin, hpolicy, line, Core.waitingOn, core_keep]
      simp [operationsOn, Signal.work?]
    all_goals simp only [onWork, core_begin, hpolicy, line, Core.waitingOn, core_keep]
    · rfl
    · exact id
  | accept =>
    have hp := Phase.eq_started_of_accept hpolicy
    obtain ⟨⟨k, hk⟩, hidle⟩ := hstarted hp
    have hidle' : operationsOn topic (begin c).core.pendingWork = [] := by
      rw [core_begin, hidle]
      rfl
    rw [onWork_of_started (t := begin c) hp]
    exact .of_takes (takes_execute hmine hp hk hidle' hw)

end Answers

section Actions

theorem line_remade (t : Turn) (n : Nat) :
    (t.update fun c => { c with
      subscriptions := c.subscriptions.remake, remakesOutstanding := n }).line topic mine =
      t.line topic mine := by
  have hsame (row : Subscription) :
      row.remake.pending = row.pending ∧ row.remake.underWay = row.underWay := by
    unfold Subscription.remake
    split <;> exact ⟨rfl, rfl⟩
  simp only [line, Core.waitingOn, core_update, Subscriptions.remake,
    Subscriptions.find?_map Subscription.topic_remake]
  cases t.core.subscriptions.find? topic with
  | none => rfl
  | some row => simp [hsame, update]

/-- A renewal decides nothing: the rows have no subscribe of the application under way. -/
theorem line_remake (hk : t.core.connection = some k)
    (hrows : ∀ row ∈ t.core.subscriptions, row.subscribing = none) :
    t.remake.line topic mine = t.line topic mine := by
  have hasked (v : Turn) (hv : v.core.subscriptions = t.core.subscriptions.remake)
      (params : SubscribeParams) :
      Issued.decided? ⟨.request (.subscribe k params), v.core⟩ = none := by
    have hfind : v.core.subscriptions.find? params.topic =
        (t.core.subscriptions.find? params.topic).map Subscription.remake := by
      rw [hv]
      exact Subscriptions.find?_map Subscription.topic_remake
    cases hf : t.core.subscriptions.find? params.topic with
    | none => simp [Issued.decided?, hfind, hf]
    | some row =>
      have hnone : row.remake.subscribing = none := by
        unfold Subscription.remake
        split <;> exact hrows row (Subscriptions.find?_eq_some hf).1
      simp [Issued.decided?, hfind, hf, hnone]
  have hall (params : List SubscribeParams) (v : Turn)
      (hv : v.core.subscriptions = t.core.subscriptions.remake) :
      (params.foldl (subscribeAgain k) v).line topic mine = v.line topic mine := by
    induction params generalizing v with
    | nil => rfl
    | cons p params ih =>
      exact (ih (subscribeAgain k v p) hv).trans (line_emit_of_none (hasked v hv p))
  unfold remake
  rw [hk]
  dsimp only
  split
  · exact (line_emit_of_none rfl).trans (line_remade t _)
  · exact (hall _ _ rfl).trans (line_remade t _)

theorem line_cleanup (topic : Topic) (mine : PromiseId → Bool) (t : Turn) :
    (t.cleanup.line topic mine).waiting = [] ∧ (t.cleanup.line topic mine).underWay = [] ∧
      (t.cleanup.line topic mine).decided = (t.line topic mine).decided := by
  have hcore := core_cleanup t
  have he := effects_cleanup t
  simp only [List.append_assoc] at he
  have hnone : t.cleanup.core.subscriptions.find? topic = none := by
    rw [hcore]
    rfl
  refine ⟨?_, underWay_of_none mine hnone, (Extends.cleanup t).decided he fun e hm c => ?_⟩
  · rw [waiting_of_none mine hnone, hcore]
    rfl
  · simp only [List.mem_append, List.mem_flatMap, Subscription.ending, List.mem_map,
      List.mem_singleton, Option.mem_toList] at hm
    rcases hm with ⟨row, -, ⟨p, -, rfl⟩ | hm⟩ | ⟨send, -, rfl⟩ | ⟨w, -, rfl⟩ | ⟨timer, -, rfl⟩ | rfl
    · rfl
    · split at hm
      · obtain rfl := List.mem_singleton.mp hm
        rfl
      · cases hm
    · rfl
    · cases w <;> rfl
    · rfl
    · rfl

theorem operationsOn_recovered {rows : Subscriptions} (hs : rows.Sorted)
    (hrows : ∀ row ∈ rows, row.StemsFrom known) : operationsOn topic rows.recovered =
      (rows.find? topic).toList.flatMap fun row => row.recovered.map Work.promise := by
  induction rows with
  | nil => rfl
  | cons row rest ih =>
    obtain ⟨hbefore, hrest⟩ := List.pairwise_cons.mp hs
    have hon : ∀ w ∈ row.recovered, w.isOn row.topic := fun w hw =>
      ((hrows row (List.mem_cons_self ..)).recovered w hw).1
    have hsplit : operationsOn topic (Subscriptions.recovered (row :: rest)) =
        operationsOn topic row.recovered ++ operationsOn topic (Subscriptions.recovered rest) := by
      rw [Subscriptions.recovered, List.flatMap_cons, operationsOn_append]
      rfl
    rw [hsplit, ih hrest fun r hr => hrows r (List.mem_cons_of_mem _ hr), Subscriptions.find?_cons]
    by_cases ht : row.topic = topic
    · subst ht
      have hnone : Subscriptions.find? rest row.topic = none :=
        Subscriptions.find?_eq_none.mpr fun r hr => (Topic.ne_of_before (hbefore r hr)).symm
      rw [if_pos rfl, operationsOn_of_isOn hon, hnone]
      simp
    · rw [if_neg ht, operationsOn_of_ne hon ht]
      rfl

/-- A lost connection puts the unsubscribe that it interrupts before all that waits. -/
theorem line_breakConnection (hs : t.core.subscriptions.Sorted)
    (hrows : ∀ row ∈ t.core.subscriptions, row.StemsFrom known) :
    t.breakConnection.line topic mine = { t.line topic mine with
      waiting := (t.core.subscriptions.find? topic).toList.flatMap
        (fun row => (row.unsubscribing.map (·.promise)).toList) ++ (t.line topic mine).waiting
      underWay := (t.core.subscriptions.find? topic).toList.flatMap
        fun row => row.awaiting ++ row.subscribing.toList } := by
  have hcore := core_breakConnection t
  have he := effects_breakConnection t
  rw [List.append_assoc] at he
  have hsends (sends : List OutstandingSend) :
      operationsOn topic (sends.map (Work.send ·.request)) = [] := by
    simp [operationsOn, Work.isOn]
  have hfind : t.breakConnection.core.subscriptions.find? topic =
      (t.core.subscriptions.find? topic).map Subscription.interrupt := by
    rw [hcore]
    exact Subscriptions.find?_map fun _ => rfl
  apply Line.ext
  · simp only [line, hfind, Option.isSome_map]
  · simp only [line, Core.waitingOn, hfind]
    simp only [hcore, operationsOn_append, hsends, operationsOn_recovered hs hrows]
    cases t.core.subscriptions.find? topic with
    | none => simp
    | some row => cases hu : row.unsubscribing <;> simp [Subscription.interrupt,
        Subscription.recovered, hu, Work.promise]
  · simp only [line, hfind]
    cases t.core.subscriptions.find? topic with
    | none => rfl
    | some row => simp [Subscription.interrupt, Subscription.underWay]
  · refine (Extends.breakConnection t).decided he fun e hm c => ?_
    rw [List.mem_append, List.mem_map, List.mem_singleton] at hm
    rcases hm with ⟨send, -, rfl⟩ | rfl <;> rfl

theorem moves_breakConnection (hs : t.core.subscriptions.Sorted)
    (hrows : ∀ row ∈ t.core.subscriptions, row.StemsFrom known) (hx : x.work? = none) :
    Line.Moves known topic c x (t.line topic mine) (t.breakConnection.line topic mine) := by
  rw [line_breakConnection hs hrows]
  refine .breaks rfl rfl ?_ rfl ?_ hx
  · intro p hp
    obtain ⟨row, hrow, hp⟩ := List.mem_flatMap.mp hp
    exact List.mem_flatMap.mpr ⟨row, hrow, List.mem_append_right _ hp⟩
  · intro p hp
    obtain ⟨row, hrow, hp⟩ := List.mem_flatMap.mp hp
    refine List.mem_flatMap.mpr ⟨row, hrow, List.mem_append_left _ ?_⟩
    exact List.mem_append.mpr (List.mem_append.mp hp).symm

/-- When the kept work is done again, no operations wait in the rows. -/
theorem takes_replayPending (hmine : ∀ w, known w → mine w.promise = w.isOn topic)
    (hp : t.core.phase = .started) (hk : t.core.connection = some k)
    (hrows : ∀ row ∈ t.core.subscriptions, row.pending = [])
    (hkept : ∀ w ∈ t.core.pendingWork, known w) :
    (t.line topic mine).Takes known (t.replayPending.line topic mine) [] := by
  let u : Turn := t.update fun c => { c with pendingWork := [] }
  have hwaiting : (u.line topic mine).waiting = [] := by
    cases hf : t.core.subscriptions.find? topic with
    | none => simp [line, Core.waitingOn, u, hf, operationsOn]
    | some row =>
      have hpending := hrows row (Subscriptions.find?_eq_some hf).1
      simp [line, Core.waitingOn, u, hf, hpending, operationsOn]
  have hline : (t.line topic mine).waiting = operationsOn topic t.core.pendingWork := by
    cases hf : t.core.subscriptions.find? topic with
    | none => exact waiting_of_none mine hf
    | some row =>
      rw [waiting_of_some mine hf, hrows row (Subscriptions.find?_eq_some hf).1]
      rfl
  obtain ⟨new, hd, hw, hf, hu, hr⟩ := takes_replay (t := u) hmine hp hk rfl hkept
  rw [hwaiting, List.nil_append] at hw
  exact ⟨new, hd, by rw [hline, List.append_nil]; exact hw, hf, hu, hr⟩

end Actions

end Turn

namespace Phase

variable {p next : Phase} {trigger : Trigger} {before after : List Action}

theorem eq_of_remakeSubscriptions
    (h : p.transition trigger = some ⟨next, before ++ .remakeSubscriptions :: after⟩) :
    p = reconnectOpen := by
  have hall : ∀ (p : Phase) (trigger : Trigger), ∀ n ∈ p.transition trigger,
      .remakeSubscriptions ∈ n.actions → p = reconnectOpen := by decide
  exact hall _ _ _ h (by simp)

theorem rowShape_of_replayPendingWork
    (h : p.transition trigger = some ⟨next, before ++ .replayPendingWork :: after⟩) :
    p.rowShape = .empty ∨ p.rowShape = .renewing := by
  have hall : ∀ (p : Phase) (trigger : Trigger), ∀ n ∈ p.transition trigger,
      .replayPendingWork ∈ n.actions → p.rowShape = .empty ∨ p.rowShape = .renewing := by decide
  exact hall _ _ _ h (by simp)

/-- Only a started client has an unsubscribe under way, unless it is stopping. -/
theorem eq_started_of_unsubscribing {row : Subscription} {u : UnsubscribeRequest}
    (hrow : p.rowShape.Admits row) (hp : ¬ p.isStopping) (hu : row.unsubscribing = some u) :
    p = started ∧ row.Detaching := by
  have hdetaching := hrow.detaching (rowShape_ne_any hp) hu
  exact ⟨eq_started_of_detaching hrow hp hdetaching.state, hdetaching⟩

end Phase

theorem Core.handle_lost {c : Core} {k : ConnectionId} {cause : ClientError}
    (hp : c.phase = .started) (hk : c.connection = some k) (hcause : cause.isFatal = false) :
    ∃ t, (begin c).Leaves t ∧ t.breakConnection.Leaves (c.handle (.disconnected k cause)) := by
  have ht : (Signal.disconnected k cause).trigger? c = some .networkError := by
    simp [Signal.trigger?, Core.isCurrent, hk, hcause]
  have hn : c.phase.transition .networkError = some ⟨.reconnectLookup,
      [.breakConnection, .discardConnection, .notifyRetrying, .requestEndpoint]⟩ := by
    rw [hp]
    rfl
  have hload := (Signal.disconnected k cause).load_prepare c
  refine ⟨c.entering (.disconnected k cause) .reconnectLookup,
    (((Leaves.refl (begin c)).update hload).update rfl).emit rfl, ?_⟩
  rw [Core.handle_of_transition ht hn]
  simp only [List.foldl_cons, List.foldl_nil, perform, notifyCause]
  exact ((((Leaves.refl _).update rfl).update rfl).emit rfl).emit rfl

namespace Sound

variable {lost : ConnectionId → Topic → Prop} {c : Core} {d env : Awaited → Nat} {x : Signal}
  {topic : Topic} {mine : PromiseId → Bool} {known : Work → Prop}

theorem started (h : Sound lost c d) (hp : c.phase = .started) :
    (∃ k, c.connection = some k) ∧ c.pendingWork = [] := by
  have hcontrol := h.control
  have htracking := h.tracking
  rw [hp] at hcontrol htracking
  exact ⟨⟨_, hcontrol.connection_of_connected (t := begin c) rfl⟩, htracking.work rfl⟩

section Handle

variable (h : Sound lost c d) (hd : ∀ a, d a = env a + x.awaited.count a)
  (hknown : c.load.StemsFrom known) (hmine : ∀ w, known w → mine w.promise = w.isOn topic)
include h hd hknown hmine

theorem moves_subscribed {k : ConnectionId} {t : Topic} {result : Outcome}
    (hx : x = .subscribed k t result) :
    Line.Moves known topic c x ((begin c).line topic mine) ((c.handle x).line topic mine) := by
  subst hx
  cases h.subscribed_cases hd with
  | ignored _ heq => exact .of_eq rfl (by rw [heq])
  | stopping _ hf _ heq =>
    obtain ⟨-, rfl⟩ := Subscriptions.find?_eq_some hf
    rw [heq]
    exact .of_eq rfl (line_onSubscribedStopping hf)
  | @remade row hk hf hrow _ _ heq =>
    obtain ⟨hmem, rfl⟩ := Subscriptions.find?_eq_some hf
    have hp : c.phase ≠ .started := by
      intro hp
      have hadm := h.tracking.shape row hmem
      rw [hp] at hadm
      exact absurd hrow.remaking (by simp [Subscription.Live.remaking hadm])
    rw [heq]
    exact moves_onRemade hk hf hp hrow.remaking hrow.pending
  | @attached row hk hf hrow hp _ heq =>
    obtain ⟨hmem, rfl⟩ := Subscriptions.find?_eq_some hf
    rw [heq]
    exact moves_onAttached hmine hp hk (h.started hp).2 hf (hknown.rows row hmem) rfl hrow

theorem moves_unsubscribed {k : ConnectionId} {t : Topic} {result : Outcome}
    (hx : x = .unsubscribed k t result) :
    Line.Moves known topic c x ((begin c).line topic mine) ((c.handle x).line topic mine) := by
  subst hx
  cases h.unsubscribed_cases hd with
  | ignored _ heq => exact .of_eq rfl (by rw [heq])
  | @detached row hk hf hrow hp _ heq =>
    obtain ⟨hmem, rfl⟩ := Subscriptions.find?_eq_some hf
    rw [heq]
    exact moves_onDetached hmine hp hk (h.started hp).2 hf (hknown.rows row hmem) rfl hrow

/-- The line of a topic is moved by every turn in one of these ways. -/
theorem moves (hown : .lookup ∈ x.awaited → env .resume = 0)
    (hx : ∀ w, x = .work w → known w) :
    Line.Moves known topic c x ((begin c).line topic mine) ((c.handle x).line topic mine) := by
  have hhandles := h.handles hd hown
  cases hhandles.loads with
  | leaves hp hl => exact .of_eq (Signal.work?_of_isPlain hp) hl.line
  | steady hs hp =>
    cases x with
    | work w => exact moves_onWork hmine h.started (hx w rfl)
    | sent k id result => exact .of_eq rfl (line_onSent ..)
    | subscribed k t result => exact h.moves_subscribed hd hknown hmine rfl
    | unsubscribed k t result => exact h.moves_unsubscribed hd hknown hmine rfl
    | _ => cases hp
  | @once a t ha performs before after =>
    have hplain := Signal.work?_of_isPlain performs.isPlain
    have hrows : t.core.subscriptions = c.subscriptions := congrArg Load.subscriptions before.load
    have hkept : t.core.pendingWork = c.pendingWork := congrArg Load.pendingWork before.load
    have hstems : ∀ row ∈ t.core.subscriptions, row.StemsFrom known := by
      rw [hrows]
      exact hknown.rows
    obtain ⟨m, m', hcontrol, hact, hstarted⟩ := hhandles.performs performs
    obtain ⟨trigger, next, _, _, -, htransition, -⟩ := id performs
    rw [after.line, ← before.line]
    cases a with
    | remakeSubscriptions =>
      simp only [Marks.act, Option.ite_none_right_eq_some] at hact
      have hp := Phase.eq_of_remakeSubscriptions htransition
      refine .of_eq hplain (line_remake (hcontrol.connection_of_connected hact.1.1) fun row hrow => ?_)
      have hadm := h.tracking.shape row (hrows ▸ hrow)
      rw [hp] at hadm
      exact Subscription.Broken.subscribing hadm
    | breakConnection => exact moves_breakConnection (hrows ▸ h.tracking.sorted) hstems hplain
    | cleanup =>
      obtain ⟨hwaiting, hunder, hdecided⟩ := line_cleanup topic mine t
      exact .ends performs hdecided hwaiting hunder
    | replayPendingWork =>
      simp only [Marks.act, Option.ite_none_right_eq_some] at hact
      have hconnected : m.connected := congrArg Marks.connected hact.1.2
      have htakes := takes_replayPending hmine (hstarted rfl)
        (hcontrol.connection_of_connected hconnected) (fun row hrow => ?_)
        (hkept ▸ hknown.kept)
      · refine .of_takes ?_
        rw [hplain]
        exact htakes
      · have hadm := h.tracking.shape row (hrows ▸ hrow)
        rw [Phase.marks] at hadm
        rcases Phase.rowShape_of_replayPendingWork htransition with hp | hp <;> rw [hp] at hadm
        · exact hadm.elim
        · exact hadm.elim (·.pending) (·.pending)
    | _ => cases ha
  | @twice t u performs performs' before middle after =>
    have hrows : t.core.subscriptions = c.subscriptions := congrArg Load.subscriptions before.load
    have hstems : ∀ row ∈ t.core.subscriptions, row.StemsFrom known := hrows ▸ hknown.rows
    obtain ⟨hwaiting, hunder, hdecided⟩ := line_cleanup topic mine u
    have hbreak : t.breakConnection.line topic mine = _ :=
      line_breakConnection (hrows ▸ h.tracking.sorted) hstems
    rw [middle.line, hbreak] at hdecided
    rw [after.line, ← before.line]
    exact .ends performs' hdecided hwaiting hunder

end Handle

end Sound

end PubSub
