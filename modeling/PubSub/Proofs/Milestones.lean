import Mathlib.Computability.RegularExpressions
import Mathlib.Order.CompletePartialOrder
import PubSub.Effect

/-! # Milestones of a session

The application is told when a session starts, when its connection is up, when
it is lost and up again, and when the session is over. These milestones follow
a grammar. The stages of a session are the states of an automaton that reads
it, and the table of the transitions goes along with the automaton.
-/

namespace PubSub

inductive Milestone where
  | starting
  | started
  | restarted
  | retrying
  | stopped
  deriving DecidableEq, Repr

def Notification.milestone? : Notification → Option Milestone
  | starting => some .starting
  | started => some .started
  | restarted => some .restarted
  | retrying _ => some .retrying
  | stopped _ => some .stopped
  | drain | delivery .. | unsubscribed .. => none

def Effect.milestone? : Effect → Option Milestone
  | notify n => n.milestone?
  | _ => none

def Action.milestone? : Action → Option Milestone
  | notifyStarting => some .starting
  | notifyStarted => some .started
  | notifyRestarted => some .restarted
  | notifyRetrying => some .retrying
  | notifyStopped => some .stopped
  | _ => none

namespace Milestone

open RegularExpression

def retries : RegularExpression Milestone := star (char retrying)

/-- The session before its connection is up. -/
def attempt : RegularExpression Milestone := char starting * retries

/-- The connection is lost, and in the end there is a new one. -/
def outage : RegularExpression Milestone := char retrying * retries * char restarted

def uptime : RegularExpression Milestone := char started * star outage

/-- That is `starting retrying* (started (retrying+ restarted)* retrying*)? stopped`. -/
def session : RegularExpression Milestone := attempt * (1 + uptime * retries) * char stopped

/-- The grammar of the milestones, one session after the other. -/
def lifecycle : RegularExpression Milestone := star session

def isUp : Milestone → Bool
  | started | restarted => true
  | _ => false

/-- The milestones begin a word of the grammar. What that means is also said in plain terms. -/
structure InOrder (w : List Milestone) : Prop where
  grammar : ∃ rest, w ++ rest ∈ lifecycle.matches'
  /-- In a session the connection is lost before it is up once more. -/
  apart : ∀ a m b m' c, w = a ++ m :: (b ++ m' :: c) → m.isUp → m'.isUp → stopped ∉ b →
    retrying ∈ b
  /-- Up again is only what has been up in the session. -/
  again : ∀ a c, w = a ++ restarted :: c → ∃ b d, a = b ++ started :: d ∧ stopped ∉ d
  /-- Between two starts there is one stop, the last milestone before the second one. -/
  sessions : ∀ a b c, w = a ++ starting :: (b ++ starting :: c) → starting ∉ b →
    ∃ d, b = d ++ [stopped] ∧ stopped ∉ d
  /-- Nothing comes before the first start, and nothing between a stop and the next start. -/
  first : ∀ m c, w = m :: c → m = starting
  rests : ∀ a m c, w = a ++ stopped :: m :: c → m = starting

end Milestone

inductive Stage where
  /-- There is no session. -/
  | idle
  /-- No connection has been up yet. -/
  | trying
  | up
  | down
  deriving DecidableEq, Repr

namespace Stage

open Milestone RegularExpression
open scoped Computability

def next : Stage → Milestone → Option Stage
  | idle, .starting => some trying
  | trying, .retrying => some trying
  | trying, .started => some up
  | up, .retrying | down, .retrying => some down
  | down, .restarted => some up
  | trying, .stopped | up, .stopped | down, .stopped => some idle
  | _, _ => none

/-- The stage after milestones, if they come in order. -/
def run (st : Stage) (w : List Milestone) : Option Stage := w.foldlM next st

theorem run_append (st : Stage) (w w' : List Milestone) :
    st.run (w ++ w') = (st.run w).bind (·.run w') := List.foldlM_append

theorem run_cons (st : Stage) (m : Milestone) (w : List Milestone) :
    st.run (m :: w) = (st.next m).bind (·.run w) := rfl

theorem run_singleton (st : Stage) (m : Milestone) : st.run [m] = st.next m := by
  rw [run_cons]
  cases st.next m <;> rfl

theorem next_starting {st st' : Stage} (h : st.next .starting = some st') :
    st = idle ∧ st' = trying := by
  cases st <;> simp_all [next]

theorem next_of_idle {st : Stage} {m : Milestone} (h : idle.next m = some st) : m = .starting := by
  cases m <;> simp_all [next]

theorem eq_stopped_of_next {st : Stage} {m : Milestone} (h : st.next m = some idle) :
    m = .stopped := by
  cases st <;> cases m <;> simp_all [next]

theorem eq_idle_of_stopped {st st' : Stage} (h : st.next .stopped = some st') : st' = idle := by
  cases st <;> simp_all [next]

theorem eq_up_of_next {st st' : Stage} {m : Milestone} (hm : m.isUp) (h : st.next m = some st') :
    st' = up := by
  cases st <;> cases m <;> simp_all [next, isUp]

theorem next_of_up {st : Stage} {m : Milestone} (h : up.next m = some st) :
    m = .retrying ∨ m = .stopped := by
  cases m <;> simp_all [next]

/-- The words that lead from the beginning to a stage. -/
def reaching : Stage → Language Milestone
  | idle => lifecycle.matches'
  | trying => lifecycle.matches' * attempt.matches'
  | up => lifecycle.matches' * attempt.matches' * uptime.matches'
  | down =>
    lifecycle.matches' * attempt.matches' * uptime.matches' *
      ((char .retrying).matches' * retries.matches')

/-- Once a session has started, a stop ends it whether or not its connection has been up. -/
theorem session_ends {l : Language Milestone}
    (hl : l ≤ 1 + uptime.matches' * retries.matches') :
    lifecycle.matches' * attempt.matches' * l * (char .stopped).matches' ≤ lifecycle.matches' := by
  calc lifecycle.matches' * attempt.matches' * l * (char .stopped).matches'
      ≤ lifecycle.matches' * attempt.matches' * (1 + uptime.matches' * retries.matches') *
          (char .stopped).matches' := by gcongr
    _ = session.matches'∗ * session.matches' := by
      simp only [lifecycle, session, matches', mul_assoc]
    _ ≤ lifecycle.matches' := kstar_mul_le_kstar

theorem retries_again : retries.matches' * (char .retrying).matches' ≤ retries.matches' :=
  kstar_mul_le_kstar

theorem one_le_retries : (1 : Language Milestone) ≤ retries.matches' := one_le_kstar

theorem reaching_next {st st' : Stage} {m : Milestone} (h : st.next m = some st') :
    st.reaching * (char m).matches' ≤ st'.reaching := by
  cases st with
  | idle =>
    obtain rfl := next_of_idle h
    cases h
    calc lifecycle.matches' * (char .starting).matches'
        ≤ lifecycle.matches' * (char .starting).matches' * retries.matches' :=
          le_mul_of_one_le_right' one_le_retries
      _ = lifecycle.matches' * attempt.matches' := mul_assoc ..
  | trying =>
    cases m <;> cases h
    · calc lifecycle.matches' * attempt.matches' * (char .started).matches'
          ≤ lifecycle.matches' * attempt.matches' * (char .started).matches' * outage.matches'∗ :=
            le_mul_of_one_le_right' one_le_kstar
        _ = lifecycle.matches' * attempt.matches' * uptime.matches' := mul_assoc ..
    · calc lifecycle.matches' * attempt.matches' * (char .retrying).matches'
          = lifecycle.matches' * (char .starting).matches' *
              (retries.matches' * (char .retrying).matches') := by
            simp only [attempt, matches', mul_assoc]
        _ ≤ lifecycle.matches' * (char .starting).matches' * retries.matches' := by
            grw [retries_again]
        _ = lifecycle.matches' * attempt.matches' := mul_assoc ..
    · have h := session_ends (l := 1) le_sup_left
      rwa [mul_one] at h
  | up =>
    cases m <;> cases h
    · simp only [reaching]
      grw [← one_le_retries, mul_one]
    · exact session_ends ((le_mul_of_one_le_right' one_le_retries).trans le_sup_right)
  | down =>
    cases m <;> cases h
    · have hs : outage.matches'∗ * outage.matches' ≤ outage.matches'∗ := kstar_mul_le_kstar
      calc lifecycle.matches' * attempt.matches' * uptime.matches' *
            ((char .retrying).matches' * retries.matches') * (char .restarted).matches'
          = lifecycle.matches' * attempt.matches' * (char .started).matches' *
              (outage.matches'∗ * outage.matches') := by
            simp only [uptime, outage, matches', mul_assoc]
        _ ≤ lifecycle.matches' * attempt.matches' * (char .started).matches' *
              outage.matches'∗ := by grw [hs]
        _ = lifecycle.matches' * attempt.matches' * uptime.matches' := mul_assoc ..
    · simp only [reaching, mul_assoc]
      grw [retries_again]
    · have hr : (char Milestone.retrying).matches' * retries.matches' ≤ retries.matches' :=
        mul_kstar_le_kstar
      have hu : uptime.matches' * ((char Milestone.retrying).matches' * retries.matches') ≤
          1 + uptime.matches' * retries.matches' := by
        grw [hr]
        exact le_sup_right
      have h := session_ends hu
      rwa [← mul_assoc] at h

theorem mem_reaching {w : List Milestone} {st : Stage} (h : idle.run w = some st) :
    w ∈ st.reaching := by
  induction w using List.reverseRecOn generalizing st with
  | nil =>
    cases h
    exact Language.nil_mem_kstar _
  | append_singleton w m ih =>
    rw [run_append] at h
    obtain ⟨st', hw, hm⟩ := Option.bind_eq_some_iff.mp h
    rw [run_singleton] at hm
    exact reaching_next hm (Language.append_mem_mul (ih hw) (Set.mem_singleton _))

def rest : Stage → List Milestone
  | idle => []
  | trying | up | down => [.stopped]

theorem run_rest (st : Stage) : st.run st.rest = some idle := by cases st <;> rfl

section Words

variable {st st' : Stage} {a b c w : List Milestone} {m : Milestone}

theorem exists_of_run_cons (h : st.run (m :: c) = some st') :
    ∃ v, st.next m = some v ∧ v.run c = some st' :=
  Option.bind_eq_some_iff.mp h

theorem exists_of_run (h : st.run (a ++ m :: c) = some st') :
    ∃ u v, st.run a = some u ∧ u.next m = some v ∧ v.run c = some st' := by
  rw [run_append] at h
  obtain ⟨u, hu, h⟩ := Option.bind_eq_some_iff.mp h
  obtain ⟨v, hv, h⟩ := exists_of_run_cons h
  exact ⟨u, v, hu, hv, h⟩

theorem exists_started (h : idle.run a = some st) (hst : st = up ∨ st = down) :
    ∃ b d, a = b ++ started :: d ∧ .stopped ∉ d := by
  induction a using List.reverseRecOn generalizing st with
  | nil =>
    cases h
    simp at hst
  | append_singleton a m ih =>
    obtain ⟨u, v, hu, hm, hv⟩ := exists_of_run h
    cases hv
    by_cases hup : u = up ∨ u = down
    · obtain ⟨b, d, rfl, hd⟩ := ih hu hup
      refine ⟨b, d ++ [m], by simp, ?_⟩
      have hm : m ≠ .stopped := by
        rintro rfl
        simp [eq_idle_of_stopped hm] at hst
      simp [hd, hm.symm]
    · cases u <;> cases m <;> cases hm <;> simp at hst hup
      exact ⟨a, [], rfl, by simp⟩

/-- In the course of a session, the last start comes after the last stop. -/
theorem exists_starting (h : idle.run w = some st) (hst : st ≠ idle) :
    ∃ b d, w = b ++ starting :: d ∧ .starting ∉ d ∧ .stopped ∉ d := by
  induction w using List.reverseRecOn generalizing st with
  | nil =>
    cases h
    exact absurd rfl hst
  | append_singleton w m ih =>
    obtain ⟨u, v, hu, hm, hv⟩ := exists_of_run h
    cases hv
    by_cases hidle : u = idle
    · subst hidle
      obtain rfl := next_of_idle hm
      exact ⟨w, [], rfl, by simp, by simp⟩
    · obtain ⟨b, d, rfl, hstart, hstop⟩ := ih hu hidle
      refine ⟨b, d ++ [m], by simp, ?_, ?_⟩ <;> rw [List.mem_append, List.mem_singleton]
      · rintro (hd | rfl)
        · exact hstart hd
        · exact hidle (next_starting hm).1
      · rintro (hd | rfl)
        · exact hstop hd
        · exact hst (eq_idle_of_stopped hm)

theorem ne_idle_of_run (h : st.run w = some st') (hst : st ≠ idle) (hw : .stopped ∉ w) :
    st' ≠ idle := by
  induction w generalizing st with
  | nil =>
    cases h
    exact hst
  | cons m w ih =>
    obtain ⟨u, hm, hu⟩ := exists_of_run_cons h
    refine ih hu ?_ fun hw' => hw (List.mem_cons_of_mem _ hw')
    rintro rfl
    exact hw (eq_stopped_of_next hm ▸ List.mem_cons_self)

theorem exists_stopped (h : trying.run b = some idle) (hb : .starting ∉ b) :
    ∃ d, b = d ++ [stopped] ∧ .stopped ∉ d := by
  rcases List.eq_nil_or_concat b with rfl | ⟨d, m, rfl⟩
  · cases h
  · rw [List.concat_eq_append] at h hb ⊢
    obtain ⟨u, v, hd, hm, hv⟩ := exists_of_run h
    cases hv
    obtain rfl := eq_stopped_of_next hm
    refine ⟨d, rfl, fun hmem => ?_⟩
    obtain ⟨d₁, d₂, rfl⟩ := List.append_of_mem hmem
    obtain ⟨_, v, -, hv, hd₂⟩ := exists_of_run hd
    obtain rfl := eq_idle_of_stopped hv
    cases d₂ with
    | nil =>
      cases hd₂
      cases hm
    | cons m d₂ =>
      obtain ⟨_, hm, -⟩ := exists_of_run_cons hd₂
      exact hb (by simp [next_of_idle hm])

theorem inOrder (h : idle.run w = some st) : InOrder w where
  grammar := by
    refine ⟨st.rest, ?_⟩
    have hrun : idle.run (w ++ st.rest) = some idle := by
      rw [run_append, h]
      exact run_rest st
    exact mem_reaching hrun
  apart := by
    rintro a m b m' c rfl hm hm' hb
    obtain ⟨u, v, -, hv, h⟩ := exists_of_run h
    obtain rfl := eq_up_of_next hm hv
    cases b with
    | nil =>
      obtain ⟨_, h, -⟩ := exists_of_run_cons h
      rcases next_of_up h with rfl | rfl <;> cases hm'
    | cons x b =>
      obtain ⟨_, h, -⟩ := exists_of_run_cons h
      rcases next_of_up h with rfl | rfl
      · exact List.mem_cons_self
      · exact absurd List.mem_cons_self hb
  again := by
    rintro a c rfl
    obtain ⟨u, v, hu, hv, -⟩ := exists_of_run h
    exact exists_started hu (.inr (by cases u <;> simp_all [next]))
  sessions := by
    rintro a b c rfl hb
    obtain ⟨u, v, -, hv, h⟩ := exists_of_run h
    obtain ⟨-, rfl⟩ := next_starting hv
    obtain ⟨u, v, hu, hv, -⟩ := exists_of_run h
    obtain ⟨rfl, -⟩ := next_starting hv
    exact exists_stopped hu hb
  first := by
    rintro m c rfl
    obtain ⟨_, hm, -⟩ := exists_of_run_cons h
    exact next_of_idle hm
  rests := by
    rintro a m c rfl
    obtain ⟨u, v, -, hv, h⟩ := exists_of_run h
    obtain rfl := eq_idle_of_stopped hv
    obtain ⟨_, hm, -⟩ := exists_of_run_cons h
    exact next_of_idle hm

end Words

end Stage

namespace Phase

def next (p : Phase) (trigger : Trigger) : Phase := (p.transition trigger).elim p (·.next)

def actions (p : Phase) (trigger : Trigger) : List Action :=
  (p.transition trigger).elim [] (·.actions)

def after (p : Phase) (triggers : List Trigger) : Phase := triggers.foldl next p

def milestones : Phase → List Trigger → List Milestone
  | _, [] => []
  | p, trigger :: triggers =>
    (p.actions trigger).filterMap Action.milestone? ++ (p.next trigger).milestones triggers

theorem after_append (p : Phase) (triggers more : List Trigger) :
    p.after (triggers ++ more) = (p.after triggers).after more := List.foldl_append

theorem milestones_append (p : Phase) (triggers more : List Trigger) :
    p.milestones (triggers ++ more) =
      p.milestones triggers ++ (p.after triggers).milestones more := by
  induction triggers generalizing p with
  | nil => rfl
  | cons trigger triggers ih =>
    rw [List.cons_append, milestones, milestones, ih, List.append_assoc]
    rfl

theorem milestones_singleton (p : Phase) (trigger : Trigger) :
    p.milestones [trigger] = (p.actions trigger).filterMap Action.milestone? :=
  List.append_nil _

theorem of_transition_none {p : Phase} {trigger : Trigger} (h : p.transition trigger = none) :
    p.after [trigger] = p ∧ p.milestones [trigger] = [] := by
  rw [milestones_singleton]
  simp [after, next, actions, h]

theorem of_transition_some {p : Phase} {trigger : Trigger} {n : Transition}
    (h : p.transition trigger = some n) : p.after [trigger] = n.next ∧
      p.milestones [trigger] = n.actions.filterMap Action.milestone? := by
  rw [milestones_singleton]
  simp [after, next, actions, h]

/-- The stages that a session may be at in a phase. -/
def admits (p : Phase) : Stage → Bool
  | .idle => p = stopped
  | .trying => p.isStopping || match p with
    | startingLookup | startingOpen | retryWait | retryLookup | retryOpen => true
    | _ => false
  | .up => p.isStopping || p = started
  | .down => p.isStopping || match p with
    | reconnectWait | reconnectLookup | reconnectOpen | remaking => true
    | _ => false

/-- A transition tells of milestones that lead from the stages of the phase to those of the next. -/
def follows (p : Phase) (trigger : Trigger) : Bool :=
  [Stage.idle, .trying, .up, .down].all fun st => !p.admits st ||
    (st.run ((p.actions trigger).filterMap Action.milestone?)).any (p.next trigger).admits

theorem follows_transition (p : Phase) (trigger : Trigger) : p.follows trigger := by
  cases p <;> cases trigger <;> rfl

variable {p : Phase} {st : Stage}

theorem admits_next (h : p.admits st) (trigger : Trigger) :
    ∃ st', st.run ((p.actions trigger).filterMap Action.milestone?) = some st' ∧
      (p.next trigger).admits st' := by
  have hst : st ∈ [Stage.idle, .trying, .up, .down] := by cases st <;> decide
  have hall := List.all_eq_true.mp (p.follows_transition trigger) st hst
  rw [h, Bool.not_true, Bool.false_or] at hall
  rw [Option.any_eq_true] at hall
  exact hall

theorem admits_after (h : p.admits st) (triggers : List Trigger) :
    ∃ st', st.run (p.milestones triggers) = some st' ∧ (p.after triggers).admits st' := by
  induction triggers generalizing p st with
  | nil => exact ⟨st, rfl, h⟩
  | cons trigger triggers ih =>
    obtain ⟨u, hu, hp⟩ := admits_next h trigger
    obtain ⟨st', hst', hp⟩ := ih hp
    refine ⟨st', ?_, hp⟩
    rw [milestones, Stage.run_append, hu]
    exact hst'

/-- Whatever triggers fire, from the beginning on, what they tell of is in order. -/
theorem milestones_inOrder (triggers : List Trigger) :
    Milestone.InOrder (stopped.milestones triggers) := by
  have hbegin : stopped.admits .idle := rfl
  obtain ⟨st, h, -⟩ := admits_after hbegin triggers
  exact Stage.inOrder h

end Phase

end PubSub
