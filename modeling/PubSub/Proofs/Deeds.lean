import PubSub.Script.Promise

/-! # One result, one listener, one delivery

Scripts complete promises and listen to them through any handle, also from
listeners that run and from callbacks, and each of these may end in a panic. What
happens to one promise obeys a law that every operation keeps, however the
operations are nested: its first result and its first listener are taken and all
later ones refused, and once both are there the listener is given the result
once, at once or as one callback.
-/

namespace PubSub

namespace PromiseScript

/-- What happens to a promise. -/
inductive Deed where
  /-- It was given a result, which it took or refused with an error. -/
  | completed (result : Except ClientError Int) (refusal : Option ClientError)
  /-- It was given a listener, which it took or refused with an error. -/
  | attached (listener : Routine) (refusal : Option ClientError)
  /-- Its listener was handed to the callback queue as a callback. -/
  | handed (listener : Routine) (result : Except ClientError Int)
  /-- The queue turned the callback of its listener down. -/
  | turnedDown (listener : Routine) (result : Except ClientError Int)
  /-- Its listener began to run. -/
  | invoked (listener : Routine) (result : Except ClientError Int)
  /-- The callback of its listener is over. -/
  | ended (result : Outcome)
  /-- The failure hook was told of the callback of its listener. -/
  | hooked (cause : ClientError)

abbrev Delivery := Routine × Except ClientError Int

namespace Deed

def result? : Deed → Option (Except ClientError Int × Option ClientError)
  | completed result refusal => some (result, refusal)
  | _ => none

def listener? : Deed → Option (Routine × Option ClientError)
  | attached r refusal => some (r, refusal)
  | _ => none

def handed? : Deed → Option Delivery
  | handed r result => some (r, result)
  | _ => none

def turnedDown? : Deed → Option Delivery
  | turnedDown r result => some (r, result)
  | _ => none

def invoked? : Deed → Option Delivery
  | invoked r result => some (r, result)
  | _ => none

def ended? : Deed → Option Outcome
  | ended result => some result
  | _ => none

def hooked? : Deed → Option ClientError
  | hooked cause => some cause
  | _ => none

end Deed

section Deeds

variable {α : Type} {ds es : List Deed}

/-- The results that a promise was given, with what it refused them with. -/
def results (ds : List Deed) : List (Except ClientError Int × Option ClientError) :=
  ds.filterMap Deed.result?

def listeners (ds : List Deed) : List (Routine × Option ClientError) :=
  ds.filterMap Deed.listener?

def handed (ds : List Deed) : List Delivery := ds.filterMap Deed.handed?

def turnedDown (ds : List Deed) : List Delivery := ds.filterMap Deed.turnedDown?

def invoked (ds : List Deed) : List Delivery := ds.filterMap Deed.invoked?

/-- How the callbacks of a promise's listener ended. -/
def endings (ds : List Deed) : List Outcome := ds.filterMap Deed.ended?

def hooked (ds : List Deed) : List ClientError := ds.filterMap Deed.hooked?

@[simp]
theorem results_append : results (ds ++ es) = results ds ++ results es := List.filterMap_append

@[simp]
theorem listeners_append : listeners (ds ++ es) = listeners ds ++ listeners es :=
  List.filterMap_append

@[simp]
theorem handed_append : handed (ds ++ es) = handed ds ++ handed es := List.filterMap_append

@[simp]
theorem turnedDown_append : turnedDown (ds ++ es) = turnedDown ds ++ turnedDown es :=
  List.filterMap_append

@[simp]
theorem invoked_append : invoked (ds ++ es) = invoked ds ++ invoked es := List.filterMap_append

@[simp]
theorem endings_append : endings (ds ++ es) = endings ds ++ endings es := List.filterMap_append

@[simp]
theorem hooked_append : hooked (ds ++ es) = hooked ds ++ hooked es := List.filterMap_append

/-- The first one is taken, and all others are refused with one error. -/
def FirstOnly (e : ClientError) : List (α × Option ClientError) → Prop
  | [] => True
  | first :: later => first.2 = none ∧ ∀ x ∈ later, x.2 = some e

theorem FirstOnly.concat {e : ClientError} {l : List (α × Option ClientError)}
    (h : FirstOnly e l) {a : α} {refusal : Option ClientError}
    (hrefusal : refusal = if l.head?.isSome then some e else none) :
    FirstOnly e (l ++ [(a, refusal)]) := by
  cases l with
  | nil => exact ⟨hrefusal, fun x hx => absurd hx List.not_mem_nil⟩
  | cons first later =>
    refine ⟨h.1, fun x hx => ?_⟩
    rcases List.mem_append.mp hx with hx | hx
    · exact h.2 x hx
    · cases List.mem_singleton.mp hx
      exact hrefusal

def firstResult? (ds : List Deed) : Option (Except ClientError Int) :=
  (results ds).head?.map Prod.fst

def firstListener? (ds : List Deed) : Option Routine := (listeners ds).head?.map Prod.fst

theorem firstResult?_append :
    firstResult? (ds ++ es) = (firstResult? ds).or (firstResult? es) := by
  rw [firstResult?, firstResult?, results_append, List.head?_append]
  cases (results ds).head? <;> rfl

theorem firstListener?_append :
    firstListener? (ds ++ es) = (firstListener? ds).or (firstListener? es) := by
  rw [firstListener?, firstListener?, listeners_append, List.head?_append]
  cases (listeners ds).head? <;> rfl

/-- What is to be delivered: the first result to the first listener, once both are there. -/
def due (ds : List Deed) : List Delivery :=
  match firstListener? ds, firstResult? ds with
  | some r, some result => [(r, result)]
  | _, _ => []

/-- The state of a promise that some deeds were done to. -/
def cellOf (ds : List Deed) : Promise Int Routine :=
  match firstListener? ds, firstResult? ds with
  | l, none => .pending l
  | none, some result => .completed (some result)
  | some _, some _ => .completed none

theorem firsts_append (hr : results es = [] ∨ (firstResult? ds).isSome)
    (hl : listeners es = [] ∨ (firstListener? ds).isSome) :
    due (ds ++ es) = due ds ∧ cellOf (ds ++ es) = cellOf ds := by
  have hresult : firstResult? (ds ++ es) = firstResult? ds := by
    rcases hr with hr | hr
    · simp [firstResult?, hr]
    · rw [firstResult?_append, Option.or_of_isSome hr]
  have hlistener : firstListener? (ds ++ es) = firstListener? ds := by
    rcases hl with hl | hl
    · simp [firstListener?, hl]
    · rw [firstListener?_append, Option.or_of_isSome hl]
  simp only [due, cellOf, hresult, hlistener, and_self]

theorem complete_cellOf (ds : List Deed) (result : Except ClientError Int) :
    (cellOf ds).complete result =
      if (firstResult? ds).isSome then .error .alreadyCompleted
      else .ok (cellOf (ds ++ [.completed result none]), firstListener? ds) := by
  have hr : firstResult? [.completed result none] = some result := rfl
  have hl : firstListener? [.completed result none] = none := rfl
  cases hf : firstResult? ds <;> cases hg : firstListener? ds <;>
    simp [cellOf, firstResult?_append, firstListener?_append, hr, hl, hf, hg, Promise.complete]

theorem attach_cellOf (ds : List Deed) (r : Routine) :
    (cellOf ds).attach r =
      if (firstListener? ds).isSome then .error Promise.listenerAttached
      else .ok (cellOf (ds ++ [.attached r none]), firstResult? ds) := by
  have hr : firstResult? [.attached r none] = none := rfl
  have hl : firstListener? [.attached r none] = some r := rfl
  cases hf : firstResult? ds <;> cases hg : firstListener? ds <;>
    simp [cellOf, firstResult?_append, firstListener?_append, hr, hl, hf, hg, Promise.attach]

def failure? : Outcome → Option ClientError
  | .ok _ => none
  | .error e => some e

end Deeds

/-- What is true of the deeds done to a promise, when some deliveries are about to be made, some
are waiting in the queue and some callbacks are running. -/
structure Law (d : Dispatch) (ds : List Deed) (owed waiting : List Delivery) (busy : Nat) :
    Prop where
  results : FirstOnly .alreadyCompleted (results ds)
  listeners : FirstOnly Promise.listenerAttached (listeners ds)
  direct : d = .direct → invoked ds ++ owed = due ds
  queued : d ≠ .direct → handed ds ++ owed = due ds ∧
    handed ds = turnedDown ds ++ invoked ds ++ waiting ∧
    (endings ds).length + busy = (invoked ds).length
  hooked : hooked ds = if d = .queued true then
    (turnedDown ds).map (fun _ => rejected) ++ (endings ds).filterMap failure? else []

namespace Law

variable {d : Dispatch} {ds es : List Deed} {owed waiting : List Delivery} {busy : Nat}
  {cell : Promise Int Routine} {r : Routine} {result : Except ClientError Int}

theorem new (d : Dispatch) : Law d [] [] [] 0 := by
  constructor <;> simp [PromiseScript.results, PromiseScript.listeners, FirstOnly, invoked, handed,
    turnedDown, endings, PromiseScript.hooked, due, firstListener?]

theorem given (h : Law d ds [] waiting busy) {x : Deed}
    (hx : x.result?.isSome ∨ x.listener?.isSome)
    (hresults : FirstOnly .alreadyCompleted (PromiseScript.results (ds ++ [x])))
    (hlisteners : FirstOnly Promise.listenerAttached (PromiseScript.listeners (ds ++ [x])))
    (hdue : due (ds ++ [x]) = due ds ++ owed) : Law d (ds ++ [x]) owed waiting busy := by
  have hnone : handed [x] = [] ∧ turnedDown [x] = [] ∧ invoked [x] = [] ∧ endings [x] = [] ∧
      PromiseScript.hooked [x] = [] := by
    cases x <;> simp_all [Deed.result?, Deed.listener?] <;> exact ⟨rfl, rfl, rfl, rfl, rfl⟩
  obtain ⟨hh, ht, hi, he, hk⟩ := hnone
  refine ⟨hresults, hlisteners, fun hd => ?_, fun hd => ?_, ?_⟩
  · have := h.direct hd
    rw [List.append_nil] at this
    rw [invoked_append, hi, hdue, ← this, List.append_nil]
  · obtain ⟨hdelivered, hqueued, hended⟩ := h.queued hd
    rw [List.append_nil] at hdelivered
    simp only [handed_append, turnedDown_append, invoked_append, endings_append, hh, ht, hi, he,
      List.append_nil]
    exact ⟨by rw [hdue, hdelivered], hqueued, hended⟩
  · simp only [hooked_append, turnedDown_append, endings_append, hk, ht, he, List.append_nil]
    exact h.hooked

theorem complete (h : Law d ds [] waiting busy) (result : Except ClientError Int)
    (hf : firstResult? ds = none) :
    Law d (ds ++ [.completed result none]) ((firstListener? ds).toList.map (·, result)) waiting
      busy := by
  have hr : firstResult? [.completed result none] = some result := rfl
  have hl : firstListener? [.completed result none] = none := rfl
  refine h.given (.inl rfl) ?_ ?_ ?_
  · rw [results_append]
    exact h.results.concat (by simp [Option.map_eq_none_iff.mp hf])
  · rw [listeners_append]
    exact (List.append_nil _).symm ▸ h.listeners
  · cases hg : firstListener? ds <;>
      simp [due, firstResult?_append, firstListener?_append, hr, hl, hf, hg]

theorem attach (h : Law d ds [] waiting busy) (r : Routine) (hg : firstListener? ds = none) :
    Law d (ds ++ [.attached r none]) ((firstResult? ds).toList.map (r, ·)) waiting busy := by
  have hr : firstResult? [.attached r none] = none := rfl
  have hl : firstListener? [.attached r none] = some r := rfl
  refine h.given (.inr rfl) ?_ ?_ ?_
  · rw [results_append]
    exact (List.append_nil _).symm ▸ h.results
  · rw [listeners_append]
    exact h.listeners.concat (by simp [Option.map_eq_none_iff.mp hg])
  · cases hf : firstResult? ds <;>
      simp [due, firstResult?_append, firstListener?_append, hr, hl, hf, hg]

theorem complete_refused (h : Law d ds [] waiting busy) (hf : (firstResult? ds).isSome) :
    Law d (ds ++ [.completed result (some .alreadyCompleted)]) [] waiting busy := by
  refine h.given (.inl rfl) ?_ ?_ ?_
  · rw [results_append]
    exact h.results.concat (by simpa [firstResult?] using hf)
  · rw [listeners_append]
    exact (List.append_nil _).symm ▸ h.listeners
  · rw [List.append_nil, (firsts_append (.inr hf) (.inl rfl)).1]

theorem attach_refused (h : Law d ds [] waiting busy) (hl : (firstListener? ds).isSome) :
    Law d (ds ++ [.attached r (some Promise.listenerAttached)]) [] waiting busy := by
  refine h.given (.inr rfl) ?_ ?_ ?_
  · rw [results_append]
    exact (List.append_nil _).symm ▸ h.results
  · rw [listeners_append]
    exact h.listeners.concat (by simpa [firstListener?] using hl)
  · rw [List.append_nil, (firsts_append (.inl rfl) (.inr hl)).1]

theorem invoke (h : Law .direct ds [(r, result)] waiting busy) :
    Law .direct (ds ++ [.invoked r result]) [] waiting busy := by
  refine ⟨?_, ?_, fun _ => ?_, fun hd => absurd rfl hd, ?_⟩
  · rw [results_append]
    exact (List.append_nil _).symm ▸ h.results
  · rw [listeners_append]
    exact (List.append_nil _).symm ▸ h.listeners
  · rw [List.append_nil, invoked_append, (firsts_append (.inl rfl) (.inl rfl)).1]
    exact h.direct rfl
  · rw [hooked_append]
    exact (List.append_nil _).trans h.hooked

variable {hook : Bool}

theorem move (h : Law (.queued hook) ds owed waiting busy) (downs begun : List Delivery)
    (ends : List Outcome) {waiting' : List Delivery} {busy' : Nat}
    (hr : PromiseScript.results es = []) (hl : PromiseScript.listeners es = [])
    (hh : handed es = owed) (ht : turnedDown es = downs)
    (hi : invoked es = begun) (he : endings es = ends)
    (hhooked : PromiseScript.hooked es = if hook then
      downs.map (fun _ => rejected) ++ ends.filterMap failure? else [])
    (hqueued : handed ds = turnedDown ds ++ invoked ds ++ waiting →
      handed ds ++ owed = turnedDown ds ++ downs ++ (invoked ds ++ begun) ++ waiting')
    (hended : ends.length + busy' = begun.length + busy)
    (hclear : downs = [] ∨ endings ds = []) :
    Law (.queued hook) (ds ++ es) [] waiting' busy' := by
  obtain ⟨hdue, hqueue, hend⟩ := h.queued nofun
  refine ⟨?_, ?_, nofun, fun _ => ⟨?_, ?_, ?_⟩, ?_⟩
  · rw [results_append, hr, List.append_nil]
    exact h.results
  · rw [listeners_append, hl, List.append_nil]
    exact h.listeners
  · rw [List.append_nil, handed_append, hh, (firsts_append (.inl hr) (.inl hl)).1]
    exact hdue
  · rw [handed_append, turnedDown_append, invoked_append, hh, ht, hi]
    exact hqueued hqueue
  · rw [endings_append, invoked_append, he, hi, List.length_append, List.length_append]
    omega
  · rw [hooked_append, turnedDown_append, endings_append, ht, he, hhooked, h.hooked]
    cases hook with
    | false => simp
    | true =>
      simp only [if_true, List.map_append, List.filterMap_append]
      rcases hclear with hclear | hclear
      · simp only [hclear, List.map_nil, List.append_nil, List.nil_append, List.append_assoc]
      · simp only [hclear, List.filterMap_nil, List.append_nil, List.nil_append, List.append_assoc]

theorem enqueue (h : Law (.queued hook) ds [(r, result)] waiting busy) :
    Law (.queued hook) (ds ++ [.handed r result]) [] (waiting ++ [(r, result)]) busy := by
  refine h.move [] [] [] rfl rfl rfl rfl rfl rfl ?_ (fun hq => ?_) rfl (.inl rfl)
  · cases hook <;> rfl
  · simp [hq]

/-- The queue may turn the listener down, of which the failure hook is told. -/
theorem turnDown (h : Law (.queued hook) ds [(r, result)] waiting busy) :
    Law (.queued hook)
      (ds ++ (.handed r result :: .turnedDown r result ::
        if hook then [.hooked rejected] else [])) [] waiting busy := by
  obtain ⟨hdue, hqueue, hend⟩ := h.queued nofun
  have hnone : handed ds = [] := by
    unfold due at hdue
    split at hdue
    · simpa using congrArg List.length hdue
    · simp at hdue
  rw [hnone] at hqueue
  simp only [List.nil_eq, List.append_eq_nil_iff] at hqueue
  obtain ⟨⟨hdowns, hbegun⟩, rfl⟩ := hqueue
  have hends : endings ds = [] := by
    rw [hbegun, List.length_nil] at hend
    exact List.length_eq_zero_iff.mp (by omega)
  cases hook <;>
  · refine h.move [(r, result)] [] [] rfl rfl rfl rfl rfl rfl rfl (fun _ => ?_) rfl (.inr hends)
    simp [hnone, hdowns, hbegun]

theorem start (h : Law (.queued hook) ds [] ((r, result) :: waiting) busy) :
    Law (.queued hook) (ds ++ [.invoked r result]) [] waiting (busy + 1) := by
  refine h.move [] [(r, result)] [] rfl rfl rfl rfl rfl rfl ?_ (fun hq => ?_) ?_ (.inl rfl)
  · cases hook <;> rfl
  · simp [hq]
  · simp [Nat.add_comm]

/-- A callback is over, of which the failure hook is told if it was a failure. -/
theorem finish (h : Law (.queued hook) ds [] waiting (busy + 1)) (how : Outcome) :
    Law (.queued hook)
      (ds ++ (.ended how :: if hook then (failure? how).toList.map .hooked else [])) []
      waiting busy := by
  cases hook <;> cases how <;>
  · refine h.move [] [] [_] rfl rfl rfl rfl rfl rfl rfl (fun hq => ?_) ?_ (.inl rfl)
    · simp [hq]
    · simp [Nat.add_comm]

end Law

end PromiseScript

end PubSub
