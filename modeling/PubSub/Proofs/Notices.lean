import PubSub.Proofs.Operations
import PubSub.Proofs.Tenure

/-! # Notices of the ends of subscriptions

A row is there from the turn in which a started client asks the server for its
topic until a turn that removes it. Its listener is told that the subscription
is over in that last turn and in no other one: if the server has acknowledged
the row by then, and also if the turn is that of a failed renewal.
-/

namespace PubSub

open Turn

namespace Core

variable (c : Core) (topic : Topic) (x : Signal)

/-- A row of the topic begins in the turn: a started client asks the server for the topic. -/
def Inserts : Prop := ∃ i ∈ (c.handle x).issued, i.core.phase = .started ∧
  ∃ k params, i.effect = .request (.subscribe k params) ∧ params.topic = topic

/-- The row of the topic is removed in the turn. Another one may begin in its place. -/
def Removes : Prop := (c.subscriptions.find? topic).isSome ∧
  ((c.handle x).core.subscriptions.find? topic = none ∨ c.Inserts topic x)

/-- What listeners are told in the turn of the ends of rows of the topic, with the causes. -/
def notices : List (ListenerId × Option ClientError) :=
  (c.handle x).effects.filterMap (Effect.ended? topic)

variable {c topic x}

theorem inserts_iff : c.Inserts topic x ↔ ((c.handle x).tenure topic).begun = true := by
  have hbegins (i : Issued) : i.begins topic = true ↔ i.core.phase = .started ∧
      ∃ k params, i.effect = .request (.subscribe k params) ∧ params.topic = topic := by
    cases he : i.effect with
    | request r => cases r <;> simp [Issued.begins, Effect.subscribesTo, he]
    | _ => simp [Issued.begins, Effect.subscribesTo, he]
  simp only [Inserts, tenure, List.any_eq_true, hbegins]

instance : Decidable (c.Inserts topic x) := decidable_of_iff _ inserts_iff.symm

instance : Decidable (c.Removes topic x) := inferInstanceAs (Decidable (_ ∧ _))

theorem row_tenure_eq_none :
    ((c.handle x).tenure topic).row = none ↔ (c.handle x).core.subscriptions.find? topic = none :=
  Option.map_eq_none_iff

end Core

namespace Tenure.Moves

variable {c : Core} {topic : Topic} {x : Signal} {l : Lease} {a : Bool}

theorem of_inserts (h : Moves c topic x ((begin c).tenure topic) ((c.handle x).tenure topic))
    (hx : c.Inserts topic x) : ∃ l, ((c.handle x).tenure topic).row = some (l, false) := by
  rw [Core.inserts_iff] at hx
  cases h with
  | absent _ eq | stays _ _ eq =>
    rw [eq] at hx
    cases hx
  | @begins l _ eq => exact ⟨l, by rw [eq]⟩
  | ends _ gone =>
    rcases gone with ⟨-, hbegun⟩ | ⟨l, hrow, -⟩
    · rw [hbegun] at hx
      cases hx
    · exact ⟨l, hrow⟩

theorem of_not_removes (h : Moves c topic x ((begin c).tenure topic) ((c.handle x).tenure topic))
    (hx : ¬ c.Removes topic x) : c.notices topic x = [] ∧
      (((begin c).tenure topic).row = none →
        ((c.handle x).tenure topic).row = none ∨ c.Inserts topic x) ∧
      ∀ l a, ((begin c).tenure topic).row = some (l, a) →
        ∃ a', ((c.handle x).tenure topic).row = some (l, a') ∧
          (a' = true ↔ a = true ∨ c.Establishes topic x) := by
  cases h with
  | absent before eq =>
    refine ⟨congrArg Tenure.told eq, fun _ => .inl (eq ▸ before), fun l a hrow => ?_⟩
    cases before.symm.trans hrow
  | begins before eq =>
    refine ⟨congrArg Tenure.told eq, fun _ => .inr ?_, fun l a hrow => ?_⟩
    · rw [Core.inserts_iff, eq]
    · cases before.symm.trans hrow
  | stays before established eq =>
    refine ⟨congrArg Tenure.told eq, fun hnone => ?_, fun l a hrow => ?_⟩
    · cases before.symm.trans hnone
    · cases before.symm.trans hrow
      exact ⟨_, congrArg Tenure.row eq, established⟩
  | ends before gone =>
    refine absurd ⟨?_, ?_⟩ hx
    · obtain ⟨row, hrow, -⟩ := Option.map_eq_some_iff.mp before
      exact Option.isSome_iff_exists.mpr ⟨row, hrow⟩
    · rw [Core.inserts_iff, ← Core.row_tenure_eq_none]
      exact gone.imp And.left fun ⟨_, _, hbegun⟩ => hbegun

/-- What a turn that removes the row of the topic tells of its end. -/
theorem of_removes (h : Moves c topic x ((begin c).tenure topic) ((c.handle x).tenure topic))
    (hx : c.Removes topic x) (hrow : ((begin c).tenure topic).row = some (l, a)) :
    (a = true ∨ c.FailsRenewal topic x → c.notices topic x = [(l.2, x.refusal?)]) ∧
      (¬ (a = true ∨ c.FailsRenewal topic x) → c.notices topic x = []) := by
  obtain ⟨-, hgone⟩ := hx
  rw [← Core.row_tenure_eq_none, Core.inserts_iff] at hgone
  cases h with
  | absent before | begins before => cases before.symm.trans hrow
  | stays _ _ eq =>
    rw [eq] at hgone
    rcases hgone with hgone | hgone <;> cases hgone
  | ends before _ told untold =>
    cases before.symm.trans hrow
    exact ⟨told, untold⟩

end Tenure.Moves

variable {ℓ : Type}

structure Lifetime (topic : Topic) (start : List (Move ℓ)) (x : Signal) (between : List (Move ℓ))
    (row : Subscription) : Prop where
  begun : (Core.after start).Inserts topic x
  row : (Core.after (start ++ [Move.take x])).subscriptions.find? topic = some row
  stays : ∀ t ∈ turnsAfter (start ++ [Move.take x]) between, ¬ t.1.Removes topic t.2

/-- The server has acknowledged the row of the topic in the course of the moves. -/
def Established (topic : Topic) (start between : List (Move ℓ)) : Prop :=
  ∃ t ∈ turnsAfter start between, t.1.Establishes topic t.2

structure System.TellsEnds (topic : Topic) (past : List (Move ℓ)) (s : System ℓ) : Prop where
  /-- What is issued is issued in turns. -/
  issued : s.issued past = (turns past).flatMap fun t => (t.1.handle t.2).effects
  /-- The end of a row is told in the turn that removes it. -/
  silent : ∀ earlier y later, past = earlier ++ Move.take y :: later →
    ¬ (Core.after earlier).Removes topic y → (Core.after earlier).notices topic y = []
  /-- Every row that is there has begun in a turn. -/
  begun : ∀ earlier later, past = earlier ++ later →
    ((Core.after earlier).subscriptions.find? topic).isSome →
    ∃ start x between row, earlier = start ++ [Move.take x] ++ between ∧
      Lifetime topic start x between row
  /-- The listener of a row stays, and the row remembers that it was acknowledged. -/
  kept : ∀ start x between later row, past = start ++ [Move.take x] ++ between ++ later →
    Lifetime topic start x between row →
      ∃ row',
        (Core.after (start ++ [Move.take x] ++ between)).subscriptions.find? topic = some row' ∧
        row'.listener = row.listener ∧
        (row'.establishedOnce = true ↔ Established topic (start ++ [Move.take x]) between)
  /-- When the row is removed, the listener is told once, with the error of the server if there
  is one. -/
  told : ∀ start x between y later row,
    past = start ++ [Move.take x] ++ between ++ Move.take y :: later →
    Lifetime topic start x between row →
    (Core.after (start ++ [Move.take x] ++ between)).Removes topic y →
    Established topic (start ++ [Move.take x]) between ∨
        (Core.after (start ++ [Move.take x] ++ between)).FailsRenewal topic y →
      (Core.after (start ++ [Move.take x] ++ between)).notices topic y =
        [(row.listener, y.refusal?)]
  /-- The end of a row that was never acknowledged is not told, unless its renewal has failed. -/
  untold : ∀ start x between y later row,
    past = start ++ [Move.take x] ++ between ++ Move.take y :: later →
    Lifetime topic start x between row →
    (Core.after (start ++ [Move.take x] ++ between)).Removes topic y →
    ¬ Established topic (start ++ [Move.take x]) between →
    ¬ (Core.after (start ++ [Move.take x] ++ between)).FailsRenewal topic y →
      (Core.after (start ++ [Move.take x] ++ between)).notices topic y = []

instance (topic : Topic) (start between : List (Move ℓ)) :
    Decidable (Established topic start between) :=
  inferInstanceAs (Decidable (∃ t ∈ turnsAfter start between, t.1.Establishes topic t.2))

theorem established_append_take {topic : Topic} {start between : List (Move ℓ)} {y : Signal} :
    Established topic start (between ++ [Move.take y]) ↔ Established topic start between ∨
      (Core.after (start ++ between)).Establishes topic y := by
  simp only [Established, turnsAfter_take, List.mem_append, List.mem_singleton, or_and_right,
    exists_or, exists_eq_left]

namespace Reached

variable {s : System ℓ} {past start between later : List (Move ℓ)} {x y : Signal} {topic : Topic}
  {row : Subscription}

theorem moves (h : Reached (past ++ Move.take x :: later) s) :
    Tenure.Moves (Core.after past) topic x ((begin (Core.after past)).tenure topic)
      (((Core.after past).handle x).tenure topic) := by
  obtain ⟨u, v, hu, hs⟩ := h.of_append_cons
  obtain ⟨hd, hown⟩ := hu.coherent.beside_take hs
  rw [← hu.core_eq]
  exact hu.coherent.sound.tenure hd fun hl => (hown hl).1

theorem row_after_take (past : List (Move ℓ)) (x : Signal) :
    ((begin (Core.after (past ++ [Move.take x]))).tenure topic).row =
      (((Core.after past).handle x).tenure topic).row := by
  rw [Core.after_take]
  rfl

/-- How the row of the topic stands since it has begun. -/
theorem row_of_lifetime (h : Reached (start ++ [Move.take x] ++ between) s)
    (hl : Lifetime topic start x between row) :
    ∃ a, ((begin (Core.after (start ++ [Move.take x] ++ between))).tenure topic).row =
        some (row.lease, a) ∧
      (a = true ↔ Established topic (start ++ [Move.take x]) between) := by
  induction between using List.reverseRecOn generalizing s with
  | nil =>
    rw [List.append_assoc] at h
    obtain ⟨l, hnew⟩ := h.moves.of_inserts hl.begun
    have hrow : ((begin (Core.after (start ++ [Move.take x]))).tenure topic).row =
        some row.standing := by
      simp [tenure, hl.row]
    rw [← row_after_take, hrow, Option.some.injEq] at hnew
    have hnot : row.establishedOnce = false := congrArg Prod.snd hnew
    rw [List.append_nil, hrow]
    exact ⟨row.establishedOnce, rfl, by simp [hnot, Established, turnsAfter, turnsFrom]⟩
  | append_singleton between m ih =>
    rw [← List.append_assoc] at h ⊢
    obtain ⟨u, hu, -⟩ := h.of_append
    by_cases hm : ∀ y, m ≠ .take y
    · have hstays := hl.stays
      rw [turnsAfter_of_ne_take _ _ hm] at hstays
      rw [Core.after_of_ne_take _ hm, Established, turnsAfter_of_ne_take _ _ hm]
      exact ih hu ⟨hl.begun, hl.row, hstays⟩
    · obtain ⟨y, rfl⟩ : ∃ y, m = .take y := by simpa using hm
      have hstays := hl.stays
      rw [turnsAfter_take] at hstays
      obtain ⟨a, hrow, ha⟩ := ih hu ⟨hl.begun, hl.row, fun t ht =>
        hstays t (List.mem_append_left _ ht)⟩
      have hnot := hstays _ (List.mem_append_right _ (List.mem_singleton_self _))
      obtain ⟨a', hrow', ha'⟩ := (h.moves.of_not_removes hnot).2.2 _ _ hrow
      rw [row_after_take, established_append_take, ← ha]
      exact ⟨a', hrow', ha'⟩

/-- A row that is there has begun in the turn of some signal. -/
theorem exists_lifetime (h : Reached past s)
    (hrow : ((Core.after past).subscriptions.find? topic).isSome) :
    ∃ start x between row, past = start ++ [Move.take x] ++ between ∧
      Lifetime topic start x between row := by
  induction past using List.reverseRecOn generalizing s with
  | nil => cases hrow
  | append_singleton past m ih =>
    obtain ⟨u, hu, -⟩ := h.of_append
    by_cases hm : ∀ y, m ≠ .take y
    · rw [Core.after_of_ne_take _ hm] at hrow
      obtain ⟨start, x, between, row, rfl, hl⟩ := ih hu hrow
      refine ⟨start, x, between ++ [m], row, by simp, hl.begun, hl.row, ?_⟩
      rw [turnsAfter_of_ne_take _ _ hm]
      exact hl.stays
    · obtain ⟨y, rfl⟩ : ∃ y, m = .take y := by simpa using hm
      by_cases hnew : (Core.after past).Inserts topic y
      · obtain ⟨row, hrow⟩ := Option.isSome_iff_exists.mp hrow
        exact ⟨past, y, [], row, by simp, hnew, hrow, List.forall_mem_nil _⟩
      · have hnot : ¬ (Core.after past).Removes topic y := by
          rintro ⟨-, hgone | hnew'⟩
          · rw [Core.after_take, hgone] at hrow
            cases hrow
          · exact hnew hnew'
        have hold : ((Core.after past).subscriptions.find? topic).isSome := by
          rw [Option.isSome_iff_ne_none]
          intro hnone
          have hstill := ((h.moves.of_not_removes hnot).2.1 (by simp [tenure, hnone])).resolve_right
            hnew
          rw [Core.row_tenure_eq_none] at hstill
          rw [Core.after_take, hstill] at hrow
          cases hrow
        obtain ⟨start, x, between, row, rfl, hl⟩ := ih hu hold
        refine ⟨start, x, between ++ [Move.take y], row, by simp, hl.begun, hl.row, ?_⟩
        rw [turnsAfter_take]
        intro t ht
        rcases List.mem_append.mp ht with ht | ht
        · exact hl.stays t ht
        · obtain rfl := List.mem_singleton.mp ht
          exact hnot

theorem notices_of_lifetime
    (h : Reached (start ++ [Move.take x] ++ between ++ Move.take y :: later) s)
    (hl : Lifetime topic start x between row)
    (hremoves : (Core.after (start ++ [Move.take x] ++ between)).Removes topic y) :
    (Established topic (start ++ [Move.take x]) between ∨
        (Core.after (start ++ [Move.take x] ++ between)).FailsRenewal topic y →
      (Core.after (start ++ [Move.take x] ++ between)).notices topic y =
        [(row.listener, y.refusal?)]) ∧
    (¬ (Established topic (start ++ [Move.take x]) between ∨
        (Core.after (start ++ [Move.take x] ++ between)).FailsRenewal topic y) →
      (Core.after (start ++ [Move.take x] ++ between)).notices topic y = []) := by
  obtain ⟨u, hu, -⟩ := h.of_append
  obtain ⟨a, hrow, ha⟩ := hu.row_of_lifetime hl
  rw [← ha]
  exact h.moves.of_removes hremoves hrow

theorem ends_told (h : Reached past s) (topic : Topic) : s.TellsEnds topic past := by
  refine ⟨h.issued_turns, ?_, ?_, ?_, ?_, ?_⟩
  · rintro earlier y later rfl hnot
    exact (h.moves.of_not_removes hnot).1
  · rintro earlier later rfl hrow
    obtain ⟨u, hu, -⟩ := h.of_append
    exact hu.exists_lifetime hrow
  · rintro start x between later row rfl hl
    obtain ⟨u, hu, -⟩ := h.of_append
    obtain ⟨a, hrow, ha⟩ := hu.row_of_lifetime hl
    obtain ⟨row', hrow', hstanding⟩ := Option.map_eq_some_iff.mp hrow
    obtain ⟨hlease, hestablished⟩ := Prod.mk.inj hstanding
    exact ⟨row', hrow', congrArg Prod.snd hlease, by rw [hestablished, ha]⟩
  · rintro start x between y later row rfl hl hremoves
    exact (h.notices_of_lifetime hl hremoves).1
  · rintro start x between y later row rfl hl hremoves hnot hrenewal
    exact (h.notices_of_lifetime hl hremoves).2 (not_or.mpr ⟨hnot, hrenewal⟩)

set_option maxRecDepth 8000 in
theorem ends_told_unsubscribeAgain : ∃ s, Reached unsubscribeAgain s ∧
    (turns unsubscribeAgain).flatMap (fun t => t.1.notices ⟨"news", none⟩ t.2) = [(0, none)] ∧
      s.TellsEnds ⟨"news", none⟩ unsubscribeAgain := by
  have hr : ∃ s, (System.new "" 1).run unsubscribeAgain = some s := ⟨_, rfl⟩
  obtain ⟨s, hs⟩ := hr
  exact ⟨s, ⟨"", 1, hs⟩, rfl, ends_told ⟨"", 1, hs⟩ ⟨"news", none⟩⟩

end Reached

def newsParams : SubscribeParams where
  topic := ⟨"news", none⟩
  qos := .atLeastOnce
  credit := 1
  autoConfirm := false
  ttlSeconds := 0

def askForNews : List (Move Unit) :=
  let options : SubscribeOptions := { qos := .atLeastOnce, credit := 1, autoConfirm := false }
  [.call .stopped .start 0, .take (.start (some 0)), .perform (.publish .starting),
    .perform (.notify .starting), .perform (.request .lookup),
    .answerLookup (.ok (.found default)), .take (.endpointAnswered (.ok (.found default))),
    .perform (.publish .starting), .perform (.request (.connect ⟨1⟩ default)),
    .answer (.opened ⟨1⟩) (.ok ()), .take (.opened ⟨1⟩ (.ok ())), .perform (.publish .started),
    .perform (.request (.report default)), .perform (.settle 0 (.ok ())),
    .perform (.notify .started), .call .started (.subscribe newsParams.topic options 0) 1]

/-- The connection is lost while the subscribe has no answer, and the next one is asked anew, which
the server refuses. -/
def refuseRenewal : List (Move Unit) :=
  [.perform (.request (.subscribe ⟨1⟩ newsParams)), .disconnect ⟨1⟩ (.network "lost"),
    .take (.disconnected ⟨1⟩ (.network "lost")), .perform (.publish .retrying), .perform .takeDrain,
    .perform (.notify (.retrying (some (.network "lost")))), .perform (.request .lookup),
    .answerLookup (.ok (.found default)), .take (.endpointAnswered (.ok (.found default))),
    .perform (.publish .retrying), .perform (.request (.connect ⟨2⟩ default)),
    .answer (.opened ⟨2⟩) (.ok ()), .take (.opened ⟨2⟩ (.ok ())), .perform (.publish .retrying),
    .perform (.request (.report default)), .perform (.request (.subscribe ⟨2⟩ newsParams)),
    .answer (.subscribed ⟨2⟩ newsParams.topic) (.error (.security "denied"))]

set_option maxRecDepth 8000 in
/-- The listener of a row that the server has never acknowledged is told of its end. -/
theorem Reached.told_unacknowledged : ∃ s, ∃ start between : List (Move Unit), ∃ x y row,
    Reached (start ++ [Move.take x] ++ between ++ [Move.take y]) s ∧
      Lifetime newsParams.topic start x between row ∧
      (Core.after (start ++ [Move.take x] ++ between)).Removes newsParams.topic y ∧
      ¬ Established newsParams.topic (start ++ [Move.take x]) between ∧
      (Core.after (start ++ [Move.take x] ++ between)).notices newsParams.topic y =
        [(row.listener, some (.security "denied"))] := by
  refine ⟨_, askForNews, refuseRenewal, .work (.subscribe ⟨newsParams, 0, 1⟩),
    .subscribed ⟨2⟩ newsParams.topic (.error (.security "denied")), _, ⟨"", 1, rfl⟩,
    ⟨by decide, rfl, by decide⟩, ?_, ?_, rfl⟩
  · decide
  · decide

end PubSub
