import Mathlib.Data.List.Perm.Basic
import Mathlib.Data.String.Basic
import PubSub.Subscription

/-! # Rows in the order of their topics

The rows of a client are strictly in the order of their topics, so that each
topic has one row at most, and putting a row in its place exchanges it for the
row that was there before.
-/

namespace PubSub

namespace Topic

variable {a b c : Topic}

theorem shareBefore_irrefl (s : Option String) : shareBefore s s = false := by
  cases s <;> simp [shareBefore]

theorem shareBefore_trans {a b c : Option String} (h : shareBefore a b) (h' : shareBefore b c) :
    shareBefore a c := by
  cases a <;> cases b <;> cases c <;>
    simp only [shareBefore, decide_eq_true_eq, Bool.false_eq_true] at *
  exact lt_trans h h'

theorem shareBefore_total {a b : Option String} (h : a ≠ b) :
    shareBefore a b ∨ shareBefore b a := by
  cases a with
  | none =>
    cases b with
    | none => exact absurd rfl h
    | some b => exact .inl rfl
  | some a =>
    cases b with
    | none => exact .inr rfl
    | some b =>
      simp only [shareBefore, decide_eq_true_eq]
      exact lt_or_gt_of_ne fun he => h (congrArg some he)

theorem before_irrefl (a : Topic) : a.before a = false := by
  simp [before, shareBefore_irrefl]

theorem before_iff : a.before b ↔
    a.pattern < b.pattern ∨ a.pattern = b.pattern ∧ shareBefore a.share b.share := by
  simp [before]

theorem before_trans (h : a.before b) (h' : b.before c) : a.before c := by
  rw [before_iff] at *
  rcases h with h | ⟨h, hs⟩ <;> rcases h' with h' | ⟨h', hs'⟩
  · exact .inl (lt_trans h h')
  · exact .inl (h' ▸ h)
  · exact .inl (h ▸ h')
  · exact .inr ⟨h.trans h', shareBefore_trans hs hs'⟩

theorem before_total (h : a ≠ b) : a.before b ∨ b.before a := by
  simp only [before_iff]
  rcases lt_trichotomy a.pattern b.pattern with hp | hp | hp
  · exact .inl (.inl hp)
  · have hs : a.share ≠ b.share := fun hs => h (by cases a; cases b; simp_all)
    exact (shareBefore_total hs).imp (fun hs => .inr ⟨hp, hs⟩) fun hs => .inr ⟨hp.symm, hs⟩
  · exact .inr (.inl hp)

theorem ne_of_before (h : a.before b) : a ≠ b := by
  rintro rfl
  rw [before_irrefl] at h
  cases h

end Topic

namespace Subscriptions

variable {rows : Subscriptions} {row old : Subscription} {topic : Topic}

/-- Strictly in the order of the topics. -/
def Sorted (rows : Subscriptions) : Prop :=
  rows.Pairwise fun a b => a.topic.before b.topic

theorem find?_eq_some (h : rows.find? topic = some row) : row ∈ rows ∧ row.topic = topic :=
  ⟨List.mem_of_find?_eq_some h, by simpa using List.find?_some h⟩

theorem find?_eq_none : rows.find? topic = none ↔ ∀ row ∈ rows, row.topic ≠ topic := by
  simp [find?]

@[simp]
theorem find?_nil : find? [] topic = none := rfl

theorem find?_cons : find? (row :: rows) topic =
    if row.topic = topic then some row else find? rows topic := by
  by_cases h : row.topic = topic <;> simp [find?, h]

theorem find?_put : (rows.put row).find? topic =
    if row.topic = topic then some row else rows.find? topic := by
  induction rows with
  | nil => simp [put, find?_cons]
  | cons r rest ih =>
    unfold put
    by_cases hb : row.topic.before r.topic
    · rw [if_pos hb, find?_cons]
    by_cases he : row.topic = r.topic
    · rw [if_neg hb, if_pos he, find?_cons, find?_cons, he]
      split <;> rfl
    · rw [if_neg hb, if_neg he, find?_cons, find?_cons, ih]
      by_cases hr : r.topic = topic
      · rw [if_pos hr, if_pos hr, if_neg (hr ▸ he)]
      · rw [if_neg hr, if_neg hr]

theorem find?_erase {t : Topic} : (rows.erase t).find? topic =
    if topic = t then none else rows.find? topic := by
  split
  · next h => subst h; rw [find?_eq_none]; simp [erase]
  · next h =>
    simp only [find?, erase, List.find?_filter]
    congr 1
    funext r
    by_cases hr : r.topic = topic <;> simp_all

theorem find?_map {f : Subscription → Subscription} (hf : ∀ row, (f row).topic = row.topic) :
    find? (rows.map f) topic = (rows.find? topic).map f := by
  induction rows with
  | nil => rfl
  | cons r rest ih =>
    rw [List.map_cons, find?_cons, find?_cons, hf, ih]
    split <;> rfl

theorem mem_put {r : Subscription} (h : r ∈ rows.put row) : r = row ∨ r ∈ rows := by
  induction rows with
  | nil => simpa [put] using h
  | cons a rest ih =>
    simp only [put] at h
    split_ifs at h <;> grind

theorem mem_erase {r : Subscription} : r ∈ rows.erase topic ↔ r ∈ rows ∧ r.topic ≠ topic := by
  simp [erase]

theorem before_put {a : Topic} (h : ∀ r ∈ rows, a.before r.topic) (hr : a.before row.topic) :
    ∀ r ∈ rows.put row, a.before r.topic := by
  intro r hm
  rcases mem_put hm with rfl | hm
  · exact hr
  · exact h r hm

theorem Sorted.put (h : rows.Sorted) (row : Subscription) : (rows.put row).Sorted := by
  induction rows with
  | nil => exact List.pairwise_singleton ..
  | cons r rest ih =>
    obtain ⟨hr, hrest⟩ := List.pairwise_cons.mp h
    simp only [Subscriptions.put]
    split_ifs with hb he
    · refine List.pairwise_cons.mpr ⟨?_, h⟩
      intro a ha
      rcases List.mem_cons.mp ha with rfl | ha
      · exact hb
      · exact Topic.before_trans hb (hr a ha)
    · exact List.pairwise_cons.mpr ⟨fun a ha => he ▸ hr a ha, hrest⟩
    · have hr' : r.topic.before row.topic := (Topic.before_total he).resolve_left hb
      exact List.pairwise_cons.mpr ⟨before_put hr hr', ih hrest⟩

theorem Sorted.erase (h : rows.Sorted) (topic : Topic) : (rows.erase topic).Sorted :=
  List.Pairwise.filter _ h

theorem Sorted.map (h : rows.Sorted) {f : Subscription → Subscription}
    (hf : ∀ row, (f row).topic = row.topic) : Sorted (rows.map f) := by
  unfold Sorted at *
  rw [List.pairwise_map]
  simpa only [hf] using h

/-- No row after the one of a topic has the same topic. -/
theorem erase_of_before (h : ∀ r ∈ rows, topic.before r.topic) : rows.erase topic = rows := by
  rw [Subscriptions.erase, List.filter_eq_self]
  intro r hr
  simpa using (Topic.ne_of_before (h r hr)).symm

theorem Sorted.find?_of_mem (h : rows.Sorted) (hm : row ∈ rows) :
    rows.find? row.topic = some row := by
  induction rows with
  | nil => cases hm
  | cons r rest ih =>
    obtain ⟨hr, hrest⟩ := List.pairwise_cons.mp h
    rw [find?_cons]
    rcases List.mem_cons.mp hm with rfl | hm
    · rw [if_pos rfl]
    · rw [if_neg (Topic.ne_of_before (hr row hm)), ih hrest hm]

theorem Sorted.count_topic (h : rows.Sorted) (topic : Topic) :
    (rows.map (·.topic)).count topic = if (rows.find? topic).isSome then 1 else 0 := by
  induction rows with
  | nil => rfl
  | cons r rest ih =>
    obtain ⟨hr, hrest⟩ := List.pairwise_cons.mp h
    rw [List.map_cons, List.count_cons, ih hrest, find?_cons]
    by_cases ht : r.topic = topic
    · subst ht
      have hnone : find? rest r.topic = none :=
        find?_eq_none.mpr fun a ha => (Topic.ne_of_before (hr a ha)).symm
      simp [hnone]
    · simp [ht]

theorem Sorted.put_perm (h : rows.Sorted) (row : Subscription) :
    (rows.put row).Perm (row :: rows.erase row.topic) := by
  induction rows with
  | nil => exact .refl _
  | cons r rest ih =>
    obtain ⟨hr, hrest⟩ := List.pairwise_cons.mp h
    simp only [Subscriptions.put]
    split_ifs with hb he
    · have hall : ∀ a ∈ r :: rest, row.topic.before a.topic := by
        intro a ha
        rcases List.mem_cons.mp ha with rfl | ha
        · exact hb
        · exact Topic.before_trans hb (hr a ha)
      rw [erase_of_before hall]
    · have hbefore : ∀ a ∈ rest, row.topic.before a.topic := fun a ha => he ▸ hr a ha
      have hrest' := erase_of_before hbefore
      simp only [Subscriptions.erase] at hrest' ⊢
      rw [List.filter_cons_of_neg (by simp [he]), hrest']
    · have hkeep : Subscriptions.erase (r :: rest) row.topic =
          r :: Subscriptions.erase rest row.topic :=
        List.filter_cons_of_pos (by simpa using Ne.symm he)
      rw [hkeep]
      exact ((ih hrest).cons r).trans (.swap ..)

theorem Sorted.perm_erase (h : rows.Sorted) (hf : rows.find? topic = some row) :
    rows.Perm (row :: rows.erase topic) := by
  induction rows with
  | nil => cases hf
  | cons r rest ih =>
    obtain ⟨hr, hrest⟩ := List.pairwise_cons.mp h
    by_cases he : r.topic = topic
    · have hrow : r = row := by simpa [find?, List.find?_cons, he] using hf
      subst hrow he
      have hrest' := erase_of_before hr
      simp only [Subscriptions.erase] at hrest' ⊢
      rw [List.filter_cons_of_neg (by simp), hrest']
    · have hf' : Subscriptions.find? rest topic = some row := by
        simpa [find?, List.find?_cons, he] using hf
      have hkeep : Subscriptions.erase (r :: rest) topic = r :: Subscriptions.erase rest topic :=
        List.filter_cons_of_pos (by simpa using he)
      rw [hkeep]
      exact ((ih hrest hf').cons r).trans (.swap ..)

theorem erase_of_find?_eq_none (h : rows.find? topic = none) : rows.erase topic = rows := by
  rw [Subscriptions.erase, List.filter_eq_self]
  intro r hr
  simpa using find?_eq_none.mp h r hr

theorem Sorted.countP_put (h : rows.Sorted) (p : Subscription → Bool) :
    (rows.put row).countP p = (rows.erase row.topic).countP p + if p row then 1 else 0 := by
  rw [(h.put_perm row).countP_eq, List.countP_cons]

theorem Sorted.countP_erase (h : rows.Sorted) (hf : rows.find? topic = some row)
    (p : Subscription → Bool) :
    rows.countP p = (rows.erase topic).countP p + if p row then 1 else 0 := by
  rw [(h.perm_erase hf).countP_eq, List.countP_cons]

end Subscriptions

end PubSub
