import Mathlib.Data.List.Forall2
import PubSub.Script.Mailbox

/-! # Draining a mailbox

While a handler runs its mailbox is being drained, so that its posts only wait.
A drain therefore handles the messages one after the other in the order in which
they were posted, which goes through the trees of messages level by level, and
it ends with an idle mailbox however the handlers end.
-/

namespace PubSub

namespace MailboxEvent

variable {κ : Type}

def entered? : MailboxEvent κ → Option κ
  | entered id => some id
  | posted .. | left _ => none

def posted? : MailboxEvent κ → Option κ
  | posted id _ => some id
  | entered _ | left _ => none

end MailboxEvent

namespace ScriptedMessage

variable {κ : Type} {posting : Bool} {m : ScriptedMessage κ} {ms ns : List (ScriptedMessage κ)}

@[simp]
theorem sizes_append (ms ns : List (ScriptedMessage κ)) :
    sizes (ms ++ ns) = sizes ms + sizes ns := by
  induction ms with
  | nil => simp [sizes]
  | cons m ms ih => simp only [List.cons_append, sizes, ih, Nat.add_assoc]

theorem size_pos (m : ScriptedMessage κ) : 0 < m.size := by
  cases m
  rw [size]
  omega

theorem sizes_outbox_lt (posting : Bool) (m : ScriptedMessage κ) :
    sizes (m.outbox posting) < m.size := by
  obtain ⟨id, posts, ending⟩ := m
  cases posting
  · exact size_pos _
  · simp [outbox, ScriptedMessage.posts, size]

def children (posting : Bool) (ms : List (ScriptedMessage κ)) : List (ScriptedMessage κ) :=
  ms.flatMap (outbox posting)

theorem children_append (ms ns : List (ScriptedMessage κ)) :
    children posting (ms ++ ns) = children posting ms ++ children posting ns :=
  List.flatMap_append

theorem sizes_children_add_length_le (posting : Bool) (ms : List (ScriptedMessage κ)) :
    sizes (children posting ms) + ms.length ≤ sizes ms := by
  induction ms with
  | nil => simp [children, sizes]
  | cons m ms ih =>
    have hm := sizes_outbox_lt posting m
    simp only [children, List.flatMap_cons, sizes_append, sizes, List.length_cons] at ih ⊢
    omega

/-- The messages that come `n` generations after some messages. -/
def generation (posting : Bool) : Nat → List (ScriptedMessage κ) → List (ScriptedMessage κ)
  | 0, ms => ms
  | n + 1, ms => generation posting n (children posting ms)

/-- All messages of some trees, level by level. -/
def breadthFirst (posting : Bool) (ms : List (ScriptedMessage κ)) : List (ScriptedMessage κ) :=
  (List.range (sizes ms)).flatMap fun n => generation posting n ms

theorem generation_eq_nil {n : Nat} (hn : sizes ms ≤ n) : generation posting n ms = [] := by
  induction n generalizing ms with
  | zero =>
    cases ms with
    | nil => rfl
    | cons m ms =>
      have := size_pos m
      rw [sizes] at hn
      omega
  | succ n ih =>
    refine ih ?_
    have := sizes_children_add_length_le posting ms
    cases ms with
    | nil => simp [children, sizes]
    | cons m ms =>
      rw [List.length_cons] at this
      omega

/-- Later generations are empty, so that it does not matter how many are asked for. -/
theorem flatMap_generation {n : Nat} (hn : sizes ms ≤ n) :
    (List.range n).flatMap (fun i => generation posting i ms) = breadthFirst posting ms := by
  obtain ⟨k, rfl⟩ := Nat.exists_eq_add_of_le hn
  have hlate : ((List.range k).map (sizes ms + ·)).flatMap
      (fun i => generation posting i ms) = [] := by
    rw [List.flatMap_eq_nil_iff]
    intro i hi
    obtain ⟨j, -, rfl⟩ := List.mem_map.mp hi
    exact generation_eq_nil (Nat.le_add_right ..)
  rw [List.range_add, List.flatMap_append, hlate, List.append_nil, breadthFirst]

theorem breadthFirst_eq (ms : List (ScriptedMessage κ)) :
    breadthFirst posting ms = ms ++ breadthFirst posting (children posting ms) := by
  have hle : sizes (children posting ms) ≤ sizes ms :=
    Nat.le_trans (Nat.le_add_right ..) (sizes_children_add_length_le posting ms)
  rw [← flatMap_generation (Nat.le_succ (sizes ms)), List.range_succ_eq_map, List.flatMap_cons,
    List.flatMap_map, ← flatMap_generation hle]
  rfl

/-- Every message of the trees but the first ones is posted by another one, in the same order. -/
theorem breadthFirst_eq_append_children (ms : List (ScriptedMessage κ)) :
    breadthFirst posting ms = ms ++ children posting (breadthFirst posting ms) := by
  induction hn : sizes ms using Nat.strongRecOn generalizing ms with
  | ind n ih =>
    cases ms with
    | nil => rfl
    | cons m ms =>
      have hle := sizes_children_add_length_le posting (m :: ms)
      rw [List.length_cons] at hle
      have hrest := ih _ (by omega) (children posting (m :: ms)) rfl
      conv_lhs => rw [breadthFirst_eq, hrest]
      rw [breadthFirst_eq (m :: ms), children_append]

/-- The levels go by like a queue that takes in what each handler posts. -/
theorem breadthFirst_append (ms ns : List (ScriptedMessage κ)) :
    breadthFirst posting (ms ++ ns) = ms ++ breadthFirst posting (ns ++ children posting ms) := by
  induction hn : sizes (ms ++ ns) using Nat.strongRecOn generalizing ms ns with
  | ind n ih =>
    cases ms with
    | nil => simp [children]
    | cons m ms =>
      have hle := sizes_children_add_length_le posting (m :: ms)
      rw [List.length_cons] at hle
      rw [sizes_append] at hn
      have hrest := ih _ (by rw [sizes_append]; omega) ns (children posting (m :: ms)) rfl
      rw [breadthFirst_eq, hrest, children_append, List.append_assoc]

theorem breadthFirst_cons (m : ScriptedMessage κ) (ms : List (ScriptedMessage κ)) :
    breadthFirst posting (m :: ms) = m :: breadthFirst posting (ms ++ m.outbox posting) := by
  have h : breadthFirst posting ([m] ++ ms) = _ := breadthFirst_append [m] ms
  rwa [children, List.flatMap_singleton] at h

/-- What the handling of a message shows, with a number of messages waiting behind it. -/
def record (posting : Bool) (waiting : Nat) (m : ScriptedMessage κ) : List (MailboxEvent κ) :=
  .entered m.id :: (m.outbox posting).mapIdx (fun i child => .posted child.id (waiting + i + 1)) ++
    if m.ending = .returns then [.left m.id] else []

theorem posted_record (posting : Bool) (waiting : Nat) (m : ScriptedMessage κ) :
    (record posting waiting m).filterMap MailboxEvent.posted? = (m.outbox posting).map (·.id) := by
  have hposts : (m.outbox posting).zipIdx.map (fun c => c.1.id) =
      (m.outbox posting).map (·.id) := by
    rw [← List.zipIdx_map_fst 0 (m.outbox posting), List.map_map, List.zipIdx_map_fst]
    rfl
  by_cases h : m.ending = .returns <;>
    simp [record, h, List.mapIdx_eq_zipIdx_map, List.filterMap_cons, MailboxEvent.posted?,
      Function.comp_def, hposts]

theorem entered_record (posting : Bool) (waiting : Nat) (m : ScriptedMessage κ) :
    (record posting waiting m).filterMap MailboxEvent.entered? = [m.id] := by
  by_cases h : m.ending = .returns <;>
    simp [record, h, List.mapIdx_eq_zipIdx_map, List.filterMap_cons, MailboxEvent.entered?,
      Function.comp_def]

end ScriptedMessage

namespace Mailbox

open ScriptedMessage

variable {κ : Type} {posting : Bool} {drain : Drain κ}

theorem postAll_of_draining (ws ms : List (ScriptedMessage κ)) :
    postAll drain ⟨ws, true⟩ ms =
      (ms.mapIdx fun i child => .posted child.id (ws.length + i + 1), ⟨ws ++ ms, true⟩) := by
  induction ms generalizing ws with
  | nil => simp [postAll]
  | cons m ms ih =>
    simp only [postAll, postWith, if_true, post, ih, List.mapIdx_cons, List.append_assoc,
      List.length_append, List.nil_append]
    simp [Nat.add_assoc, Nat.add_comm 1]

/-- The handler of a mailbox that is being drained never drains it, whatever a drain would do. -/
theorem handle_of_draining (ws : List (ScriptedMessage κ)) (m : ScriptedMessage κ) :
    handle drain posting ⟨ws, true⟩ m =
      (record posting ws.length m, ⟨ws ++ m.outbox posting, true⟩) := by
  rw [handle, postAll_of_draining]
  rfl

abbrev Records (posting : Bool) : List (ScriptedMessage κ) → List (List (MailboxEvent κ)) → Prop :=
  List.Forall₂ fun m r => ∃ waiting, r = record posting waiting m

theorem drainSteps_eq (posting : Bool) (ws : List (ScriptedMessage κ)) :
    ∃ records, Records posting (breadthFirst posting ws) records ∧
      ∀ fuel, sizes ws < fuel → drainSteps posting fuel ⟨ws, true⟩ = (records.flatten, empty) := by
  induction hn : sizes ws using Nat.strongRecOn generalizing ws with
  | ind n ih =>
    cases ws with
    | nil =>
      refine ⟨[], .nil, fun fuel hfuel => ?_⟩
      obtain ⟨fuel, rfl⟩ := Nat.exists_eq_succ_of_ne_zero (Nat.ne_of_gt (Nat.zero_lt_of_lt hfuel))
      rfl
    | cons m ws =>
      have hlt := sizes_outbox_lt posting m
      rw [sizes] at hn
      obtain ⟨records, hr, hd⟩ := ih _ (by rw [sizes_append]; omega) (ws ++ m.outbox posting) rfl
      refine ⟨record posting ws.length m :: records, ?_, fun fuel hfuel => ?_⟩
      · rw [breadthFirst_cons]
        exact .cons ⟨_, rfl⟩ hr
      · obtain ⟨fuel, rfl⟩ :=
          Nat.exists_eq_succ_of_ne_zero (Nat.ne_of_gt (Nat.zero_lt_of_lt hfuel))
        simp only [drainSteps, next, handle_of_draining]
        rw [hd fuel (by rw [sizes_append]; omega)]
        rfl

namespace Records

variable {ms : List (ScriptedMessage κ)} {records : List (List (MailboxEvent κ))}

theorem entered (h : Records posting ms records) :
    records.flatten.filterMap MailboxEvent.entered? = ms.map (·.id) := by
  induction h with
  | nil => rfl
  | cons hr _ ih =>
    obtain ⟨waiting, rfl⟩ := hr
    rw [List.flatten_cons, List.filterMap_append, entered_record, ih]
    rfl

theorem posted (h : Records posting ms records) :
    records.flatten.filterMap MailboxEvent.posted? = (children posting ms).map (·.id) := by
  induction h with
  | nil => rfl
  | cons hr _ ih =>
    obtain ⟨waiting, rfl⟩ := hr
    rw [List.flatten_cons, List.filterMap_append, posted_record, ih, children, children,
      List.flatMap_cons, List.map_append]

end Records

/-- What a post from outside sets off. -/
structure Drains (posting : Bool) (m : ScriptedMessage κ) (events : List (MailboxEvent κ)) :
    Prop where
  /-- The drain ends by itself, with an idle mailbox. -/
  ends : ∀ fuel, m.size < fuel → drainSteps posting fuel (empty.post m) = (events, empty)
  /-- What is posted is handled once, in the order in which it is posted. -/
  inOrder : events.filterMap MailboxEvent.entered? =
    m.id :: events.filterMap MailboxEvent.posted?
  levels : events.filterMap MailboxEvent.entered? = (breadthFirst posting [m]).map (·.id)
  /-- A handler begins when the one before it has ended. -/
  apart : ∃ records, events = records.flatten ∧
    Records posting (breadthFirst posting [m]) records

def receiveAll (posting : Bool) (box : Mailbox (ScriptedMessage κ)) :
    List (ScriptedMessage κ) → List (List (MailboxEvent κ)) × Mailbox (ScriptedMessage κ)
  | [] => ([], box)
  | m :: ms =>
    let (events, box) := box.receive posting m
    let (later, box) := box.receiveAll posting ms
    (events :: later, box)

theorem receive_empty (posting : Bool) (m : ScriptedMessage κ) :
    ∃ events, (empty : Mailbox (ScriptedMessage κ)).receive posting m = (events, empty) ∧
      Drains posting m events := by
  obtain ⟨records, hr, hd⟩ := drainSteps_eq posting [m]
  have hsize : sizes [m] = m.size := by simp [sizes]
  rw [hsize] at hd
  have hchildren : breadthFirst posting [m] =
      m :: children posting (breadthFirst posting [m]) := breadthFirst_eq_append_children [m]
  refine ⟨records.flatten, ?_, hd, ?_, hr.entered, records, rfl, hr⟩
  · refine hd _ ?_
    simp [empty, sizes]
  · rw [hr.entered, hr.posted]
    exact congrArg (List.map (·.id)) hchildren

theorem posts_drained (posting : Bool) (ms : List (ScriptedMessage κ)) :
    ∃ turns, receiveAll posting empty ms = (turns, empty) ∧
      List.Forall₂ (Drains posting) ms turns := by
  induction ms with
  | nil => exact ⟨[], rfl, .nil⟩
  | cons m ms ih =>
    obtain ⟨events, he, hm⟩ := receive_empty posting m
    obtain ⟨turns, ht, hms⟩ := ih
    refine ⟨events :: turns, ?_, .cons hm hms⟩
    rw [receiveAll, he]
    simp only [ht]

/-- The second message panics after it has posted the fourth, which comes after the third. -/
example : (receiveAll true empty
    [.mk 1 [.mk 2 [.mk 4 [] .returns] (.panics "lost"), .mk 3 [] .returns] .returns]).1.map
      (·.filterMap MailboxEvent.entered?) = [[1, 2, 3, 4]] := rfl

end Mailbox

end PubSub
