import PubSub.Proofs.Calls
import PubSub.Proofs.Confirms
import PubSub.Proofs.Lines

/-! # Operations run in the order of the calls

The operations on a topic are decided in the order in which a client has
handled them, whatever they have waited in. An unsubscribe that a lost
connection has interrupted is decided again before anything else on its topic.
-/

namespace PubSub

open Turn

theorem eraseDups_sublist (ps : List PromiseId) : ps.eraseDups.Sublist ps := by
  induction ps using List.reverseRecOn with
  | nil => exact .slnil
  | append_singleton ps p ih =>
    rw [List.eraseDups_append]
    refine ih.append ?_
    by_cases hp : p ∈ ps
    · have hnone : [p].removeAll ps = [] := by simp [List.removeAll, hp]
      rw [hnone]
      exact List.nil_sublist _
    · have hone : [p].removeAll ps = [p] := by simp [List.removeAll, hp]
      rw [hone]
      exact .refl _

/-- What is decided from the front of what waits, and what waits afterwards, stay in order. -/
theorem order_append {ds old new ws ws' ps qs : List PromiseId}
    (h : (ds.eraseDups ++ ws.filter (· ∉ ds)).Sublist ps) (hold : ∀ p ∈ old, p ∈ ds)
    (hw : new ++ ws' = ws ++ qs) :
    ((ds ++ (old ++ new)).eraseDups ++ ws'.filter (· ∉ ds ++ (old ++ new))).Sublist (ps ++ qs) := by
  have hnew : (old ++ new).removeAll ds = new.filter (· ∉ ds) := by
    have hnone : old.filter (fun p => !ds.elem p) = [] := by
      rw [List.filter_eq_nil_iff]
      simpa using hold
    rw [List.removeAll, List.filter_append, hnone, List.nil_append]
    simp
  have hwait : (ws'.filter (· ∉ ds ++ (old ++ new))).Sublist (ws'.filter (· ∉ ds)) :=
    List.monotone_filter_right ws' fun p hp => by
      simp only [List.mem_append, not_or, decide_eq_true_eq] at hp ⊢
      exact hp.1
  have hfront := (List.Sublist.refl ds.eraseDups).append
    ((eraseDups_sublist (new.filter (· ∉ ds))).append hwait)
  rw [← List.filter_append, hw, List.filter_append] at hfront
  rw [List.eraseDups_append, hnew, List.append_assoc]
  refine hfront.trans ?_
  rw [← List.append_assoc]
  exact h.append List.filter_sublist

/-- An interrupted unsubscribe is decided: it is asked of the server again, or the renewal of its
row has failed. -/
def Issued.Resumes (u : UnsubscribeRequest) (failed : Prop) (i : Issued) : Prop :=
  i.decided? = some u.promise ∧ ((∃ k, i.effect = .request (.unsubscribe k u.topic u.zeroTtl)) ∨
    i.effect = .settle u.promise (.error (.notSubscribed u.topic.address)) ∧ failed)

namespace Line

variable {known : Work → Prop} {topic : Topic} {c : Core} {x : Signal} {l l' : Line}
  {past : List Issued} {ps : List PromiseId}

/-- The operations that were decided, each when it was first, and those that wait to be are in
order. -/
structure Ordered (known : Work → Prop) (past : List Issued) (ps : List PromiseId) (l : Line) :
    Prop where
  order : ((past.filterMap Issued.decided?).eraseDups ++
    l.waiting.filter (· ∉ past.filterMap Issued.decided?)).Sublist ps
  underWay : ∀ p ∈ l.underWay, p ∈ past.filterMap Issued.decided?
  /-- The first decision about an operation is the real one. -/
  fits : ∀ p i, past.find? (·.decided? = some p) = some i → i.Fits known

theorem Ordered.nil (hw : l.waiting = []) (hu : l.underWay = []) : Ordered known [] ps l :=
  ⟨by rw [hw]; exact List.nil_sublist ps, by rw [hu]; exact List.forall_mem_nil _,
    fun _ _ h => absurd h nofun⟩

theorem Ordered.moves (h : Ordered known past ps l) (hl : l.decided = [])
    (hm : Moves known topic c x l l') :
    Ordered known (past ++ l'.decided) (ps ++ operationsOn topic x.work?.toList) l' := by
  have hlonger := List.sublist_append_left ps (operationsOn topic x.work?.toList)
  cases hm with
  | serves old new hdecided hanswers hwaiting hfits hunder hremains =>
    rw [hl, List.nil_append] at hdecided
    have hold : ∀ i ∈ old, ∃ p ∈ past.filterMap Issued.decided?, i.decided? = some p := by
      intro i hi
      obtain ⟨p, hp, he⟩ := hanswers i hi
      exact ⟨p, h.underWay p hp, he⟩
    have hold' : ∀ p ∈ old.filterMap Issued.decided?, p ∈ past.filterMap Issued.decided? := by
      intro p hp
      obtain ⟨i, hi, he⟩ := List.mem_filterMap.mp hp
      obtain ⟨q, hq, he'⟩ := hold i hi
      exact Option.some.inj (he.symm.trans he') ▸ hq
    rw [hdecided]
    refine ⟨?_, ?_, ?_⟩
    · rw [List.filterMap_append, List.filterMap_append]
      exact order_append h.order hold' hwaiting
    · intro p hp
      rw [List.filterMap_append, List.filterMap_append, List.mem_append, List.mem_append]
      exact (hunder p hp).imp (h.underWay p) .inr
    · intro p i hi
      rw [List.find?_append, List.find?_append, Option.or_eq_some_iff, Option.or_eq_some_iff] at hi
      rcases hi with hi | ⟨hnone, hi | ⟨-, hi⟩⟩
      · exact h.fits p i hi
      · -- What has been under way was decided before.
        obtain ⟨q, hq, he⟩ := hold i (List.mem_of_find?_eq_some hi)
        obtain ⟨j, hj, hd⟩ := List.mem_filterMap.mp hq
        have hp : i.decided? = some p := by simpa using List.find?_some hi
        rw [List.find?_eq_none] at hnone
        exact absurd (decide_eq_true (hd.trans (he.symm.trans hp))) (hnone j hj)
      · exact hfits i (List.mem_of_find?_eq_some hi)
  | refuses heq =>
    subst heq
    rw [hl, List.append_nil]
    exact ⟨h.order.trans hlonger, h.underWay, h.fits⟩
  | @breaks front htracked hdecided hinterrupted hwaiting hunder hplain =>
    rw [hdecided, hl, List.append_nil]
    refine ⟨?_, fun p hp => h.underWay p (hunder p hp), h.fits⟩
    have hfront : front.filter (· ∉ past.filterMap Issued.decided?) = [] := by
      rw [List.filter_eq_nil_iff]
      intro p hp
      simpa using List.mem_filterMap.mp (h.underWay p (hinterrupted p hp))
    rw [hwaiting, List.filter_append, hfront, List.nil_append]
    exact h.order.trans hlonger
  | ends hcleanup hdecided hwaiting hunder =>
    rw [hdecided, hl, List.append_nil]
    refine ⟨?_, ?_, h.fits⟩
    · rw [hwaiting, List.filter_nil, List.append_nil]
      exact ((List.sublist_append_left ..).trans h.order).trans hlonger
    · rw [hunder]
      exact List.forall_mem_nil _

/-- An unsubscribe that was interrupted is first in the line. Its row is still there unless the
renewal of the row failed. -/
structure Resuming (u : UnsubscribeRequest) (failed : Prop) (l : Line) : Prop where
  waiting : l.waiting.head? = some u.promise
  underWay : l.underWay = []
  tracked : ¬ failed → l.tracked

theorem Resuming.begin {u : UnsubscribeRequest} {failed : Prop} {t : Turn}
    {mine : PromiseId → Bool} (h : (t.line topic mine).Resuming u failed) :
    ((Turn.begin t.core).line topic mine).Resuming u failed :=
  ⟨h.waiting, h.underWay, h.tracked⟩

theorem Resuming.mono {u : UnsubscribeRequest} {failed failed' : Prop} (h : Resuming u failed l)
    (hf : failed → failed') : Resuming u failed' l :=
  ⟨h.waiting, h.underWay, fun hnot => h.tracked fun hfailed => hnot (hf hfailed)⟩

namespace Resuming

variable {u : UnsubscribeRequest} {failed : Prop}

section

variable (h : Resuming u failed l) (hl : l.decided = []) (hm : Moves known topic c x l l')
include h hl hm

/-- Until something is decided, the unsubscribe stays first. -/
theorem moves (hnone : l'.decided = []) (hend : ∀ t, ¬ c.Performs x .cleanup t) :
    Resuming u (failed ∨ c.FailsRenewal topic x) l' := by
  cases hm with
  | serves old new hdecided hanswers hwaiting hfits hunder hremains =>
    rw [hnone, hl, List.nil_append, eq_comm, List.append_eq_nil_iff] at hdecided
    obtain ⟨rfl, rfl⟩ := hdecided
    refine ⟨?_, ?_, fun hfailed => ?_⟩
    · have hwaiting : l'.waiting = l.waiting ++ _ := hwaiting
      rw [hwaiting, List.head?_append, h.waiting]
      rfl
    · rw [List.eq_nil_iff_forall_not_mem]
      intro p hp
      have hp := (hunder p hp).resolve_right List.not_mem_nil
      rw [h.underWay] at hp
      cases hp
    · rw [not_or] at hfailed
      exact hremains h.underWay hfailed.2 (h.tracked hfailed.1)
  | refuses heq =>
    subst heq
    exact ⟨h.waiting, h.underWay, fun hfailed => h.tracked fun hf => hfailed (.inl hf)⟩
  | @breaks front htracked hdecided hinterrupted hwaiting hunder hplain =>
    rw [h.underWay] at hinterrupted hunder
    have hfront : front = [] := List.eq_nil_iff_forall_not_mem.mpr
      fun p hp => List.not_mem_nil (hinterrupted p hp)
    refine ⟨?_, ?_, fun hfailed => ?_⟩
    · rw [hwaiting, hfront, List.nil_append, h.waiting]
    · exact List.eq_nil_iff_forall_not_mem.mpr fun p hp => List.not_mem_nil (hunder p hp)
    · rw [htracked]
      exact h.tracked fun hf => hfailed (.inl hf)
  | ends hcleanup => exact absurd hcleanup (hend _)

theorem resumes (hone : ∀ w, known w → w.promise = u.promise → w = .unsubscribe u) {i : Issued}
    {rest : List Issued} (hi : l'.decided = i :: rest) :
    i.Resumes u (failed ∨ c.FailsRenewal topic x) := by
  cases hm with
  | serves old new hdecided hanswers hwaiting hfits hunder hremains =>
    have hold : old = [] := by
      rw [List.eq_nil_iff_forall_not_mem]
      intro j hj
      obtain ⟨p, hp, -⟩ := hanswers j hj
      rw [h.underWay] at hp
      cases hp
    rw [hi, hl, hold, List.nil_append, List.nil_append] at hdecided
    subst hdecided
    obtain ⟨w, hw, hpromise, hdecides⟩ := hfits i (List.mem_cons_self ..)
    have hfirst : w.promise = u.promise := by
      have hhead := congrArg List.head? hwaiting
      rw [List.filterMap_cons_some hpromise, List.cons_append, List.head?_cons, List.head?_append,
        h.waiting] at hhead
      exact Option.some.inj hhead
    obtain rfl := hone w hw hfirst
    refine ⟨hpromise, hdecides.imp id fun hanswer => ⟨hanswer, ?_⟩⟩
    by_contra hfailed
    rw [not_or] at hfailed
    have hknown : l.tracked → i.isUnknown = false := hremains h.underWay hfailed.2
    have hunknown : i.isUnknown = true := by simp [Issued.isUnknown, hanswer]
    exact absurd (hunknown.symm.trans (hknown (h.tracked hfailed.1))) nofun
  | refuses heq => simp [heq, hl] at hi
  | breaks htracked hdecided => simp [hdecided, hl] at hi
  | ends hcleanup hdecided => simp [hdecided, hl] at hi

end

end Resuming

end Line

section Runs

variable {ℓ : Type} {s : System ℓ} {past before later : List (Move ℓ)} {topic : Topic}

/-- The connection is lost while an unsubscribe is under way, and the client does not stop. -/
structure Core.Interrupts (c : Core) (x : Signal) (u : UnsubscribeRequest) : Prop where
  lost : ∃ k cause, x = .disconnected k cause ∧ c.connection = some k ∧ cause.isFatal = false
  goesOn : ¬ c.phase.isStopping
  underWay : ∃ row ∈ c.subscriptions, row.unsubscribing = some u

def operations (topic : Topic) (past : List (Move ℓ)) : List PromiseId :=
  operationsOn topic ((handled past).filterMap Signal.work?)

def isOperation (topic : Topic) (past : List (Move ℓ)) (p : PromiseId) : Bool :=
  p ∈ operations topic past

def decisionsOf (mine : PromiseId → Bool) (ts : List (Core × Signal)) : List Issued :=
  ts.flatMap fun t => (t.1.handle t.2).issued.filter fun i => i.decided?.any mine

theorem decisionsOf_append (mine : PromiseId → Bool) (ts ts' : List (Core × Signal)) :
    decisionsOf mine (ts ++ ts') = decisionsOf mine ts ++ decisionsOf mine ts' :=
  List.flatMap_append ..

/-- The decisions of the last turn are those that its line has come to. -/
theorem decisionsOf_singleton (topic : Topic) (mine : PromiseId → Bool) (c : Core) (x : Signal) :
    decisionsOf mine [(c, x)] = ((c.handle x).line topic mine).decided :=
  List.flatMap_singleton ..

def decisions (topic : Topic) (past : List (Move ℓ)) : List Issued :=
  decisionsOf (isOperation topic past) (turns past)

def turnsAfter (past more : List (Move ℓ)) : List (Core × Signal) :=
  turnsFrom (Core.after past) more

theorem turnsAfter_take (past more : List (Move ℓ)) (x : Signal) :
    turnsAfter past (more ++ [.take x]) =
      turnsAfter past more ++ [(Core.after (past ++ more), x)] := by
  rw [turnsAfter, turnsFrom_append, Core.after, ← List.foldl_append]
  rfl

theorem turnsAfter_of_ne_take (past more : List (Move ℓ)) {m : Move ℓ} (hm : ∀ x, m ≠ .take x) :
    turnsAfter past (more ++ [m]) = turnsAfter past more := by
  rw [turnsAfter, turnsFrom_append]
  cases m with
  | take x => exact absurd rfl (hm x)
  | _ => exact List.append_nil _

theorem mem_handled {w : Work} : .work w ∈ handled past ↔ Handled past w := by
  rw [handled, List.mem_flatMap]
  constructor
  · rintro ⟨m, hm, hx⟩
    cases m with
    | take x =>
      obtain rfl := List.mem_singleton.mp hx
      exact hm
    | _ => cases hx
  · intro hm
    exact ⟨_, hm, List.mem_singleton_self _⟩

theorem mem_operations {p : PromiseId} :
    p ∈ operations topic past ↔ ∃ w, Handled past w ∧ w.isOn topic ∧ w.promise = p := by
  simp only [operations, operationsOn, List.mem_map, List.mem_filter, List.mem_filterMap]
  constructor
  · rintro ⟨w, ⟨⟨x, hx, hw⟩, hon⟩, rfl⟩
    cases x with
    | work v =>
      obtain rfl := Option.some.inj hw
      exact ⟨v, mem_handled.mp hx, hon, rfl⟩
    | _ => cases hw
  · rintro ⟨w, hw, hon, rfl⟩
    exact ⟨w, ⟨⟨.work w, mem_handled.mpr hw, rfl⟩, hon⟩, rfl⟩

theorem operations_take (past : List (Move ℓ)) (x : Signal) :
    operations topic (past ++ [.take x]) =
      operations topic past ++ operationsOn topic x.work?.toList := by
  cases hx : x.work? <;> simp [operations, operationsOn, handled_take, hx]

theorem operations_of_ne_take (past : List (Move ℓ)) {m : Move ℓ} (hm : ∀ x, m ≠ .take x) :
    operations topic (past ++ [m]) = operations topic past := by
  rw [operations, operations, handled_of_ne_take past hm]

namespace Reached

theorem work_eq (h : Reached past s) {v w : Work} (hv : Handled past v) (hw : Handled past w)
    (hp : v.promise = w.promise) : v = w := by
  have heq := h.given.eq_of_mem (p := w.promise) (List.mem_append_left _ (mem_handled.mpr hv))
    (List.mem_append_left _ (mem_handled.mpr hw)) (by simp [Signal.promises, hp])
    (by simp [Signal.promises])
  injection heq

theorem isOperation_promise (h : Reached past s) {w : Work} (hw : Handled past w) :
    isOperation topic past w.promise = w.isOn topic := by
  rw [Bool.eq_iff_iff, isOperation, decide_eq_true_eq, mem_operations]
  constructor
  · rintro ⟨v, hv, hon, hp⟩
    exact h.work_eq hv hw hp ▸ hon
  · exact fun hon => ⟨w, hw, hon, rfl⟩

theorem nodup_operations (h : Reached past s) : (operations topic past).Nodup := by
  have hsub (xs : List Signal) : (operationsOn topic (xs.filterMap Signal.work?)).Sublist
      (xs.flatMap Signal.promises) := by
    induction xs with
    | nil => exact .slnil
    | cons x xs ih =>
      cases x with
      | work w =>
        by_cases hon : w.isOn topic
        · simpa [operationsOn, Signal.work?, Signal.promises, hon] using ih
        · simpa [operationsOn, Signal.work?, Signal.promises, hon] using ih.cons w.promise
      | _ => exact ih.trans (List.sublist_append_right ..)
  have honce := h.given.once
  rw [System.posted, List.flatMap_append] at honce
  exact (honce.sublist (List.sublist_append_left ..)).sublist (hsub _)

theorem line_moves {x : Signal} (h : Reached (before ++ .take x :: later) s) (topic : Topic) :
    Line.Moves (Handled (before ++ .take x :: later)) topic (Core.after before) x
      ((begin (Core.after before)).line topic (isOperation topic (before ++ .take x :: later)))
      (((Core.after before).handle x).line topic
        (isOperation topic (before ++ .take x :: later))) := by
  obtain ⟨u, v, hu, hs⟩ := h.of_append_cons
  obtain ⟨hd, hown⟩ := hu.coherent.beside_take hs
  rw [← hu.core_eq]
  refine hu.coherent.sound.moves hd (hu.stemsFrom.mono fun w hw => List.mem_append_left _ hw)
    (fun w hw => h.isOperation_promise hw) (fun hl => (hown hl).1) ?_
  rintro w rfl
  exact List.mem_append_right _ (List.mem_cons_self ..)

theorem ordered (h : Reached past s) (topic : Topic) : ∀ before later, past = before ++ later →
    Line.Ordered (Handled past) (decisionsOf (isOperation topic past) (turns before))
      (operations topic before)
      ((begin (Core.after before)).line topic (isOperation topic past)) := by
  intro before
  induction before using List.reverseRecOn with
  | nil =>
    intro later _
    have hdecisions : decisionsOf (isOperation topic past) (turns ([] : List (Move ℓ))) = [] := rfl
    have hcore : Core.after ([] : List (Move ℓ)) = {} := rfl
    have hfind : Subscriptions.find? (Core.subscriptions {}) topic = none := rfl
    rw [hdecisions, hcore]
    exact .nil (waiting_of_none _ hfind) (underWay_of_none _ hfind)
  | append_singleton before m ih =>
    rintro later rfl
    rw [List.append_assoc, List.singleton_append] at h ih ⊢
    have ih := ih (m :: later) rfl
    by_cases hm : ∀ x, m ≠ .take x
    · rwa [turns_of_ne_take before hm, Core.after_of_ne_take before hm,
        operations_of_ne_take before hm]
    · obtain ⟨x, rfl⟩ : ∃ x, m = .take x := by simpa using hm
      have hmoves := ih.moves rfl (h.line_moves topic)
      rw [← decisionsOf_singleton topic, ← decisionsOf_append, ← turns_take,
        ← operations_take] at hmoves
      rw [Core.after_take]
      exact ⟨hmoves.order, hmoves.underWay, hmoves.fits⟩

/-- The turn of a lost connection puts the unsubscribe that it interrupts first in the line. -/
theorem interrupted {x : Signal} {u : UnsubscribeRequest} (mine : PromiseId → Bool)
    (h : Reached (before ++ .take x :: later) s) (hi : (Core.after before).Interrupts x u) :
    Handled (before ++ .take x :: later) (.unsubscribe u) ∧
    decisionsOf mine [(Core.after before, x)] = [] ∧
    ((begin (Core.after (before ++ [.take x]))).line u.topic mine).Resuming u False := by
  obtain ⟨w, hw, -⟩ := h.of_append
  obtain ⟨⟨k, cause, rfl, hk, hcause⟩, hgoes, row, hmem, hu⟩ := hi
  have htracking := hw.coherent.sound.tracking
  have hstems := hw.stemsFrom
  rw [hw.core_eq] at htracking hstems
  obtain ⟨hp, hrow⟩ := Phase.eq_started_of_unsubscribing (htracking.shape row hmem) hgoes hu
  obtain ⟨t, hbefore, hafter⟩ := Core.handle_lost hp hk hcause
  have hrows : t.core.subscriptions = (Core.after before).subscriptions :=
    congrArg Load.subscriptions hbefore.load
  obtain ⟨htopic, hknown⟩ := (hstems.rows row hmem).unsubscribing u hu
  have hf : (Core.after before).subscriptions.find? u.topic = some row := by
    rw [htopic]
    exact htracking.sorted.find?_of_mem hmem
  have hline : ((Core.after before).handle (.disconnected k cause)).line u.topic mine = _ :=
    hafter.line
  rw [line_breakConnection (hrows ▸ htracking.sorted) (by rw [hrows]; exact hstems.rows), hrows,
    hf, hbefore.line] at hline
  refine ⟨List.mem_append_left _ hknown, ?_, ?_⟩
  · rw [decisionsOf_singleton u.topic, hline]
    rfl
  · rw [Core.after_take]
    refine Line.Resuming.begin (hline ▸ ⟨?_, ?_, fun _ => ?_⟩)
    · simp [hu]
    · simp [hrow.awaiting, hrow.subscribing]
    · exact tracked_of_some mine hf

/-- Until something is decided on its topic, an unsubscribe that was interrupted stays first. -/
theorem resuming {start : List (Move ℓ)} {u : UnsubscribeRequest} (h : Reached past s)
    (hfirst : ((begin (Core.after start)).line topic (isOperation topic past)).Resuming u False)
    (between : List (Move ℓ)) : ∀ later, past = start ++ between ++ later →
      (∀ t ∈ turnsAfter start between, ∀ v, ¬ t.1.Performs t.2 .cleanup v) →
      decisionsOf (isOperation topic past) (turnsAfter start between) = [] →
      ((begin (Core.after (start ++ between))).line topic (isOperation topic past)).Resuming u
        (∃ t ∈ turnsAfter start between, t.1.FailsRenewal topic t.2) := by
  induction between using List.reverseRecOn with
  | nil =>
    intro _ _ _ _
    rw [List.append_nil]
    exact hfirst.mono False.elim
  | append_singleton between m ih =>
    rintro later rfl hend hnone
    rw [← List.append_assoc, List.append_assoc _ [m], List.singleton_append] at h hfirst ih hnone ⊢
    have ih := ih (m :: later) rfl
    by_cases hm : ∀ y, m ≠ .take y
    · rw [turnsAfter_of_ne_take _ _ hm] at hend hnone ⊢
      rw [Core.after_of_ne_take _ hm]
      exact ih hend hnone
    · obtain ⟨y, rfl⟩ : ∃ y, m = .take y := by simpa using hm
      rw [turnsAfter_take] at hend hnone ⊢
      rw [decisionsOf_append, List.append_eq_nil_iff] at hnone
      have ih := ih (fun t ht => hend t (List.mem_append_left _ ht)) hnone.1
      rw [decisionsOf_singleton topic] at hnone
      have hmoves := ih.moves rfl (h.line_moves topic) hnone.2
        (hend _ (List.mem_append_right _ (List.mem_singleton_self _)))
      rw [Core.after_take]
      refine hmoves.begin.mono ?_
      rintro (⟨t, ht, hf⟩ | hf)
      · exact ⟨t, List.mem_append_left _ ht, hf⟩
      · exact ⟨_, List.mem_append_right _ (List.mem_singleton_self _), hf⟩

end Reached

/-- The operations on a topic run in the order of the calls, one at a time. -/
structure System.OperationsKept (topic : Topic) (past : List (Move ℓ)) (s : System ℓ) : Prop where
  /-- What the turns issue is performed, in order. -/
  issued : s.issued past = (turns past).flatMap fun t => (t.1.handle t.2).effects
  distinct : (operations topic past).Nodup
  /-- The first decision about an operation asks the server for it or answers it. -/
  decided : ∀ p i, (decisions topic past).find? (·.decided? = some p) = some i →
    ∃ w, Handled past w ∧ w.isOn topic ∧ w.promise = p ∧ i.Decides w
  /-- What was decided comes first, then what waits and was not decided yet. -/
  ordered : (((decisions topic past).filterMap Issued.decided?).eraseDups ++
    (s.client.core.waitingOn topic).filter
      (· ∉ (decisions topic past).filterMap Issued.decided?)).Sublist (operations topic past)
  interrupted : ∀ start x later u, u.topic = topic → past = start ++ .take x :: later →
    (Core.after start).Interrupts x u →
    decisionsOf (isOperation topic past) [(Core.after start, x)] = []
  /-- The first turn after the interruption that decides anything on the topic begins with the
  unsubscribe. -/
  resumed : ∀ start x between y later u, u.topic = topic →
    past = start ++ [.take x] ++ between ++ .take y :: later → (Core.after start).Interrupts x u →
    (∀ t ∈ turnsAfter (start ++ [.take x]) between, ∀ v, ¬ t.1.Performs t.2 .cleanup v) →
    decisionsOf (isOperation topic past) (turnsAfter (start ++ [.take x]) between) = [] →
    ∀ i rest, decisionsOf (isOperation topic past)
      [(Core.after (start ++ [.take x] ++ between), y)] = i :: rest →
    i.Resumes u (∃ t ∈ turnsAfter (start ++ [.take x]) (between ++ [.take y]),
      t.1.FailsRenewal topic t.2)
  /-- On the current connection one request for the topic is unanswered at most. -/
  single : ∀ k, s.client.core.connection = some k →
    s.calls.count (.subscribed k topic) + s.calls.count (.unsubscribed k topic) ≤ 1

namespace Reached

/-- What is unanswered for a topic on the current connection belongs to its row. -/
theorem calls_le_one (h : Reached past s) {k : ConnectionId}
    (hk : s.client.core.connection = some k) (topic : Topic) :
    s.calls.count (.subscribed k topic) + s.calls.count (.unsubscribed k topic) ≤ 1 := by
  have hdue (r : Session.Reply) : s.calls.count r ≤ s.due (.reply r) := by
    have hle : s.calls.count r ≤ (s.calls.map Awaited.reply).count (.reply r) :=
      List.count_le_count_map
    simp only [System.due, System.awaited, List.count_append]
    omega
  have hlinked := h.coherent.sound.tracking.linked rfl k hk topic
  have hsubscribes := (hdue _).trans hlinked.subscribes
  have hunsubscribes := (hdue _).trans hlinked.unsubscribes
  cases hf : s.client.core.subscriptions.find? topic with
  | none =>
    simp only [hf, Option.any_none] at hsubscribes hunsubscribes
    simp at hsubscribes hunsubscribes
    omega
  | some row =>
    simp only [hf, Option.any_some] at hsubscribes hunsubscribes
    by_cases hs : row.state = .attaching
    · simp [hs] at hsubscribes hunsubscribes
      omega
    · simp only [hs] at hsubscribes
      split at hunsubscribes <;> simp at hsubscribes <;> omega

theorem operations_kept (h : Reached past s) (topic : Topic) : s.OperationsKept topic past := by
  have hordered := h.ordered topic past [] (List.append_nil past).symm
  refine ⟨h.issued_turns, h.nodup_operations, ?_, ?_, ?_, ?_, fun k hk => h.calls_le_one hk topic⟩
  · intro p i hi
    obtain ⟨w, hw, hp, hdecides⟩ := hordered.fits p i hi
    have hpromise : i.decided? = some p := by simpa using List.find?_some hi
    have hmine : isOperation topic past w.promise := by
      obtain ⟨t, -, hm⟩ := List.mem_flatMap.mp (List.mem_of_find?_eq_some hi)
      have hany := (List.mem_filter.mp hm).2
      rwa [hp, Option.any_some] at hany
    exact ⟨w, hw, h.isOperation_promise hw ▸ hmine, Option.some.inj (hp.symm.trans hpromise), hdecides⟩
  · rw [h.core_eq]
    exact hordered.order
  · rintro start x later u rfl rfl hi
    exact (h.interrupted _ hi).2.1
  · rintro start x between y later u rfl rfl hi hend hnone i rest hdecided
    have hsplit : start ++ [.take x] ++ between ++ .take y :: later =
        start ++ .take x :: (between ++ .take y :: later) := by simp
    have hreached := h
    rw [hsplit] at hreached
    obtain ⟨hknown, -, hfirst⟩ := hreached.interrupted
      (isOperation u.topic (start ++ [.take x] ++ between ++ .take y :: later)) hi
    rw [← hsplit] at hknown
    have hresuming := h.resuming hfirst between _ rfl hend hnone
    rw [decisionsOf_singleton u.topic] at hdecided
    have hone : ∀ w, Handled _ w → w.promise = u.promise → w = .unsubscribe u :=
      fun w hw hp => h.work_eq hw hknown hp
    rw [turnsAfter_take]
    obtain ⟨hpromise, hway⟩ := hresuming.resumes rfl (h.line_moves u.topic) hone hdecided
    refine ⟨hpromise, hway.imp id fun ⟨hanswer, hfailed⟩ => ⟨hanswer, ?_⟩⟩
    rcases hfailed with ⟨t, ht, hf⟩ | hf
    · exact ⟨t, List.mem_append_left _ ht, hf⟩
    · exact ⟨_, List.mem_append_right _ (List.mem_singleton_self _), hf⟩

end Reached

end Runs

/-- A run in which a lost connection interrupts an unsubscribe behind which a subscribe waits. -/
def unsubscribeAgain : List (Move Unit) :=
  let params : SubscribeParams :=
    { topic := ⟨"news", none⟩, qos := .atLeastOnce, credit := 1, autoConfirm := false
      ttlSeconds := 0 }
  let options : SubscribeOptions := { qos := .atLeastOnce, credit := 1, autoConfirm := false }
  subscribeByHand ++ ([.call .started (.unsubscribe params.topic none) 2,
    .take (.work (.unsubscribe ⟨params.topic, false, 2⟩)),
    .perform (.request (.unsubscribe ⟨1⟩ params.topic false)),
    .call .started (.subscribe params.topic options 0) 3, .take (.work (.subscribe ⟨params, 0, 3⟩)),
    .disconnect ⟨1⟩ (.network "lost"), .take (.disconnected ⟨1⟩ (.network "lost")),
    .perform (.publish .retrying), .perform .takeDrain,
    .perform (.notify (.retrying (some (.network "lost")))), .perform (.request .lookup),
    .answerLookup (.ok (.found default)), .take (.endpointAnswered (.ok (.found default))),
    .perform (.publish .retrying), .perform (.request (.connect ⟨2⟩ default)),
    .answer (.opened ⟨2⟩) (.ok ()), .take (.opened ⟨2⟩ (.ok ())), .perform (.publish .retrying),
    .perform (.request (.report default)), .perform (.request (.subscribe ⟨2⟩ params)),
    .answer (.subscribed ⟨2⟩ params.topic) (.ok ()),
    .take (.subscribed ⟨2⟩ params.topic (.ok ())), .perform (.post .subscriptionsRemade),
    .take .subscriptionsRemade, .perform (.publish .started), .perform (.notify .restarted),
    .perform (.request (.unsubscribe ⟨2⟩ params.topic false)),
    .answer (.unsubscribed ⟨2⟩ params.topic) (.ok ()),
    .take (.unsubscribed ⟨2⟩ params.topic (.ok ())), .perform (.settle 2 (.ok ())),
    .perform (.notify (.unsubscribed 0 params.topic none)),
    .perform (.request (.subscribe ⟨2⟩ params))] : List (Move Unit))

set_option maxRecDepth 8000 in
theorem Reached.operations_kept_unsubscribeAgain : ∃ s, Reached unsubscribeAgain s ∧ s.AtRest ∧
    (decisions ⟨"news", none⟩ unsubscribeAgain).filterMap Issued.decided? = [1, 2, 2, 3] ∧
      s.OperationsKept ⟨"news", none⟩ unsubscribeAgain := by
  have hr : ∃ s, (System.new "" 1).run unsubscribeAgain = some s ∧ s.AtRest := ⟨_, rfl, rfl⟩
  obtain ⟨s, hs, ha⟩ := hr
  exact ⟨s, ⟨"", 1, hs⟩, ha, rfl, Reached.operations_kept ⟨"", 1, hs⟩ ⟨"news", none⟩⟩

end PubSub
