import PubSub.Proofs.Origins

/-! # Link addresses

An address tells its topic: it can be read up to its first colon, and up to the
next one if it is that of a share, because no name of a share holds a colon.
Every row stems from a subscribe that a client has accepted, so its topic is
valid, and no two rows have the same address.
-/

namespace PubSub

/-- A text that is written before a colon, and holds none, can be read back. -/
theorem append_colon_inj {s t r r' : List Char} (hs : ':' ∉ s) (ht : ':' ∉ t)
    (h : s ++ ':' :: r = t ++ ':' :: r') : s = t ∧ r = r' := by
  induction s generalizing t with
  | nil =>
    cases t with
    | nil => exact ⟨rfl, (List.cons.inj h).2⟩
    | cons c t =>
      obtain ⟨rfl, -⟩ := List.cons.inj h
      exact absurd (List.mem_cons_self ..) ht
  | cons c s ih =>
    cases t with
    | nil =>
      obtain ⟨rfl, -⟩ := List.cons.inj h
      exact absurd (List.mem_cons_self ..) hs
    | cons d t =>
      obtain ⟨rfl, hrest⟩ := List.cons.inj h
      obtain ⟨rfl, hr⟩ := ih (fun hm => hs (List.mem_cons_of_mem _ hm))
        (fun hm => ht (List.mem_cons_of_mem _ hm)) hrest
      exact ⟨rfl, hr⟩

namespace Topic

theorem toList_address_private (pattern : String) :
    (address ⟨pattern, none⟩).toList = "private".toList ++ ':' :: pattern.toList := by
  simp [address, toString]

theorem toList_address_share (pattern share : String) :
    (address ⟨pattern, some share⟩).toList =
      "share".toList ++ ':' :: (share.toList ++ ':' :: pattern.toList) := by
  simp [address, toString]

/-- Of a pattern it only matters that there is one; a share must have a name without a colon. -/
theorem validate_eq_ok_iff {t : Topic} : t.validate = .ok () ↔
    t.pattern ≠ "" ∧ ∀ share ∈ t.share, share ≠ "" ∧ ':' ∉ share.toList := by
  obtain ⟨pattern, share⟩ := t
  unfold validate
  by_cases hp : pattern = ""
  · simp [hp]
  cases share with
  | none => simp [hp]
  | some share =>
    by_cases hs : share = "" <;> by_cases hc : ':' ∈ share.toList <;> simp [hp, hs, hc]

theorem eq_of_address {a b : Topic} (ha : a.validate = .ok ()) (hb : b.validate = .ok ())
    (h : a.address = b.address) : a = b := by
  obtain ⟨p, s⟩ := a
  obtain ⟨p', s'⟩ := b
  have hlist := congrArg String.toList h
  cases s with
  | none =>
    cases s' with
    | none =>
      rw [toList_address_private, toList_address_private] at hlist
      have hp := (append_colon_inj (by decide) (by decide) hlist).2
      rw [String.toList_inj.mp hp]
    | some s' =>
      rw [toList_address_private, toList_address_share] at hlist
      exact absurd (append_colon_inj (by decide) (by decide) hlist).1 (by decide)
  | some s =>
    cases s' with
    | none =>
      rw [toList_address_private, toList_address_share] at hlist
      exact absurd (append_colon_inj (by decide) (by decide) hlist).1 (by decide)
    | some s' =>
      have hs := ((validate_eq_ok_iff.mp ha).2 s rfl).2
      have hs' := ((validate_eq_ok_iff.mp hb).2 s' rfl).2
      rw [toList_address_share, toList_address_share] at hlist
      have hrest := (append_colon_inj (by decide) (by decide) hlist).2
      obtain ⟨hshare, hp⟩ := append_colon_inj hs hs' hrest
      rw [String.toList_inj.mp hp, String.toList_inj.mp hshare]

-- With a colon in the name of a share, an address could be that of two topics.
example : address ⟨"c", some "a:b"⟩ = address ⟨"b:c", some "a"⟩ := rfl

end Topic

/-- Addresses tell topics, and the rows of a session are told apart by their addresses. -/
structure System.AddressesApart {ℓ : Type} (s : System ℓ) : Prop where
  unambiguous : ∀ a b : Topic, a.validate = .ok () → b.validate = .ok () →
    a.address = b.address → a.pattern = b.pattern ∧ a.share = b.share
  /-- Any characters may stand in a pattern. -/
  free : ∀ pattern ≠ "", (⟨pattern, none⟩ : Topic).validate = .ok () ∧
    ∀ share ≠ "", ':' ∉ share.toList → (⟨pattern, some share⟩ : Topic).validate = .ok ()
  valid : ∀ row ∈ s.client.core.subscriptions, row.topic.validate = .ok ()
  apart : ∀ row ∈ s.client.core.subscriptions, ∀ other ∈ s.client.core.subscriptions,
    row.topic.address = other.topic.address → row = other

theorem Reached.addresses_apart {ℓ : Type} {s : System ℓ} {past : List (Move ℓ)}
    (h : Reached past s) : s.AddressesApart := by
  have hvalid : ∀ row ∈ s.client.core.subscriptions, row.topic.validate = .ok () := by
    intro row hrow
    obtain ⟨r, hp, -, hr⟩ := h.rows_asked row hrow
    rw [Subscription.topic, ← hp]
    exact h.valid_of_handled hr
  refine ⟨fun a b ha hb hab => ?_, fun pattern hp => ⟨?_, fun share hs hc => ?_⟩, hvalid, ?_⟩
  · obtain rfl := Topic.eq_of_address ha hb hab
    exact ⟨rfl, rfl⟩
  · exact Topic.validate_eq_ok_iff.mpr ⟨hp, by simp⟩
  · refine Topic.validate_eq_ok_iff.mpr ⟨hp, ?_⟩
    rintro _ ⟨⟩
    exact ⟨hs, hc⟩
  · intro row hrow other hother haddress
    have hsorted := h.coherent.sound.tracking.sorted
    have htopic := Topic.eq_of_address (hvalid row hrow) (hvalid other hother) haddress
    have hfind := hsorted.find?_of_mem hrow
    rw [htopic, hsorted.find?_of_mem hother] at hfind
    exact (Option.some.inj hfind).symm

/-- A run in which a client subscribes to a topic by itself and to another one with others. -/
def subscribeShared : List (Move Unit) :=
  let params : SubscribeParams :=
    { topic := ⟨"private:news", some "share"⟩, qos := .atLeastOnce, credit := 1
      autoConfirm := false, ttlSeconds := 0 }
  let options : SubscribeOptions := { qos := .atLeastOnce, credit := 1, autoConfirm := false }
  subscribeByHand ++ ([.call .started (.subscribe params.topic options 1) 2,
    .take (.work (.subscribe ⟨params, 1, 2⟩)), .perform (.request (.subscribe ⟨1⟩ params)),
    .answer (.subscribed ⟨1⟩ params.topic) (.ok ()),
    .take (.subscribed ⟨1⟩ params.topic (.ok ())), .perform (.settle 2 (.ok ()))] :
    List (Move Unit))

set_option maxRecDepth 8000 in
theorem Reached.addresses_apart_subscribeShared : ∃ s, Reached subscribeShared s ∧
    s.client.core.subscriptions.map (·.topic.address) =
      ["private:news", "share:share:private:news"] ∧ s.AddressesApart := by
  have hr : ∃ s, (System.new "" 1).run subscribeShared = some s ∧
      s.client.core.subscriptions.map (·.topic.address) =
        ["private:news", "share:share:private:news"] := ⟨_, rfl, rfl⟩
  obtain ⟨s, hs, haddresses⟩ := hr
  exact ⟨s, ⟨"", 1, hs⟩, haddresses, Reached.addresses_apart ⟨"", 1, hs⟩⟩

end PubSub
