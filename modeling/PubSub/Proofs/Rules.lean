import PubSub.Proofs.Escapes
import PubSub.Proofs.Growth

/-! # The rules of options

Options are bound by a list of rules, some about a field and some about a
structure as a whole. Validation accepts the options that keep to every rule
and reports every rule that is broken, a rule about a whole structure only where
nothing else in it is broken. A multiplier that is no number is let through.
-/

namespace PubSub

namespace ClientId

/-- A letter, a digit, or one of four other characters. -/
def IsIdChar (c : Char) : Prop :=
  ('A' ≤ c ∧ c ≤ 'Z') ∨ ('a' ≤ c ∧ c ≤ 'z') ∨ ('0' ≤ c ∧ c ≤ '9') ∨ c ∈ ['%', '/', '.', '_']

structure IsWellFormed (id : String) : Prop where
  pos : 1 ≤ id.length
  le : id.length ≤ 256
  chars : ∀ c ∈ id.toList, IsIdChar c

theorem isAllowed_iff {c : Char} : isAllowed c ↔ IsIdChar c := by
  have halphanum : c.isAlphanum = (decide ('A' ≤ c ∧ c ≤ 'Z') ||
      decide ('a' ≤ c) && decide (c ≤ 'z') || decide ('0' ≤ c) && decide (c ≤ '9')) := rfl
  simp [isAllowed, IsIdChar, halphanum, or_assoc]

theorem IsIdChar.utf8Size {c : Char} (h : IsIdChar c) : c.utf8Size = 1 := by
  rw [Char.utf8Size_eq_one_iff, UInt32.le_iff_toNat_le]
  simp only [IsIdChar, Char.le_def, UInt32.le_iff_toNat_le, List.mem_cons, List.not_mem_nil,
    or_false] at h
  rcases h with ⟨-, h⟩ | ⟨-, h⟩ | ⟨-, h⟩ | rfl | rfl | rfl | rfl
  · exact h.trans (by decide)
  · exact h.trans (by decide)
  · exact h.trans (by decide)
  all_goals decide

theorem utf8ByteSize_ofList {cs : List Char} (h : ∀ c ∈ cs, IsIdChar c) :
    (String.ofList cs).utf8ByteSize = cs.length := by
  induction cs with
  | nil => rfl
  | cons c cs ih =>
    obtain ⟨hc, hcs⟩ := List.forall_mem_cons.mp h
    rw [String.ofList_cons, String.utf8ByteSize_append, String.utf8ByteSize_singleton, ih hcs,
      hc.utf8Size, List.length_cons, Nat.add_comm]

theorem check_eq_ok_iff_isWellFormed {id : String} : check id = .ok () ↔ IsWellFormed id := by
  have hsize (h : ∀ c ∈ id.toList, IsIdChar c) : id.utf8ByteSize = id.length := by
    have hlist := utf8ByteSize_ofList h
    rwa [String.ofList_toList, String.length_toList] at hlist
  have hpos : id ≠ "" ↔ 1 ≤ id.length := by
    rw [Nat.one_le_iff_ne_zero, Ne, Ne, String.length_eq_zero_iff]
  simp only [check_eq_ok_iff, List.all_eq_true, isAllowed_iff]
  constructor
  · rintro ⟨hne, hle, hall⟩
    exact ⟨hpos.mp hne, hsize hall ▸ hle, hall⟩
  · rintro ⟨hp, hle, hall⟩
    exact ⟨hpos.mpr hp, (hsize hall).trans_le hle, hall⟩

theorem check_of_not_isWellFormed {id : String} (h : ¬ IsWellFormed id) :
    ∃ text, check id = .error (.argument text) := by
  rw [← check_eq_ok_iff_isWellFormed] at h
  unfold check at h ⊢
  split
  · exact ⟨_, rfl⟩
  · split
    · exact ⟨_, rfl⟩
    · simp_all

theorem isIdChar_of_value? {c : Char} (h : (Hex.value? c).isSome) : IsIdChar c := by
  unfold Hex.value? at h
  split at h
  · next hd => exact .inr (.inr (.inl hd))
  · split at h
    · next hl => exact .inr (.inl ⟨hl.1, Char.le_trans hl.2 (by decide : 'f' ≤ 'z')⟩)
    · split at h
      · next hu => exact .inl ⟨hu.1, Char.le_trans hu.2 (by decide : 'F' ≤ 'Z')⟩
      · cases h

/-- An id that is generated has twelve characters, all of them allowed. -/
theorem isWellFormed_generate (n : Nat) : IsWellFormed (generate n) := by
  have hl : (Nat.toDigits 16 (n % Nat.pow 16 7)).length ≤ 7 :=
    (Nat.length_toDigits_le_iff (by decide) (by decide)).mpr (Nat.mod_lt _ (by decide))
  have hlist : (generate n).toList = generatedMark.toList ++
      (List.replicate (7 - (Nat.toDigits 16 (n % Nat.pow 16 7)).length) '0' ++
        Nat.toDigits 16 (n % Nat.pow 16 7)) := by
    rw [generate, String.toList_append, Hex.padded, String.toList_ofList]
  have hlength : (generate n).length = 12 := by
    rw [← String.length_toList, hlist, List.length_append, List.length_append,
      List.length_replicate, Nat.sub_add_cancel hl]
    rfl
  refine ⟨by omega, by omega, fun c hc => ?_⟩
  rw [hlist, List.mem_append, List.mem_append, List.mem_replicate] at hc
  rcases hc with hc | ⟨-, rfl⟩ | hc
  · rw [← isAllowed_iff]
    have hmark : generatedMark.toList.all isAllowed := by decide
    exact List.all_eq_true.mp hmark c hc
  · exact isIdChar_of_value? rfl
  · exact isIdChar_of_value? (Hex.isSome_value?_of_mem hc)

end ClientId

namespace Double

def value? : Double → Option ℚ
  | .finite negative significand exponent =>
    some (if negative then -(significand * 2 ^ exponent) else significand * 2 ^ exponent)
  | _ => none

def IsBetween (least greatest : ℚ) (x : Double) : Prop := ∃ q ∈ x.value?, least ≤ q ∧ q ≤ greatest

instance (least greatest : ℚ) (x : Double) : Decidable (x.IsBetween least greatest) :=
  match h : x.value? with
  | none => isFalse fun ⟨_, hq, _⟩ => nomatch h.symm.trans hq
  | some q => decidable_of_iff (least ≤ q ∧ q ≤ greatest)
    ⟨fun hb => ⟨q, h, hb⟩, fun ⟨_, hq, hb⟩ => Option.some.inj (h.symm.trans hq) ▸ hb⟩

theorem scaledTo_mul_two_zpow {s : Bool} {m : Nat} {e scale : Int} (h : scale ≤ e) :
    (finite s m e).value? = some ((scaledTo s m e scale : ℚ) * 2 ^ scale) := by
  have hpos := scaledTo_mul (m := m) h
  cases s with
  | false => rw [hpos]; rfl
  | true =>
    have hneg : (scaledTo true m e scale : ℚ) = -scaledTo false m e scale := by simp [scaledTo]
    rw [hneg, neg_mul, hpos]
    rfl

theorem lt_iff {x y : Double} {q r : ℚ} (hq : x.value? = some q) (hr : y.value? = some r) :
    x.lt y ↔ q < r := by
  cases x with
  | nan | infinite => cases hq
  | finite s m e =>
    cases y with
    | nan | infinite => cases hr
    | finite t n f =>
      rw [scaledTo_mul_two_zpow (min_le_left e f)] at hq
      rw [scaledTo_mul_two_zpow (min_le_right e f)] at hr
      obtain rfl := Option.some.inj hq
      obtain rfl := Option.some.inj hr
      rw [lt, decide_eq_true_eq, mul_lt_mul_iff_left₀ (by positivity), Int.cast_lt]

end Double

theorem RetryOptions.multiplierInRange_iff {o : RetryOptions} :
    o.multiplierInRange ↔ (o.multiplier ≠ .nan → o.multiplier.IsBetween 1 10) := by
  have hone : (Double.ofNat 1).value? = some 1 := by norm_num [Double.ofNat_one, Double.value?]
  have hten : (Double.ofNat 10).value? = some 10 := by norm_num [Double.ofNat_ten, Double.value?]
  rw [multiplierInRange, Bool.and_eq_true, Bool.not_eq_true', Bool.not_eq_true',
    ← Bool.not_eq_true, ← Bool.not_eq_true]
  cases hm : o.multiplier with
  | nan => exact ⟨fun _ h => absurd rfl h, fun _ => ⟨Bool.false_ne_true, Bool.false_ne_true⟩⟩
  | infinite s =>
    have hnot : ¬ (Double.infinite s).IsBetween 1 10 := by
      rintro ⟨q, hq, -⟩
      cases hq
    refine ⟨fun h => ?_, fun h => absurd (h (by simp)) hnot⟩
    cases s with
    | false => exact absurd rfl h.2
    | true => exact absurd rfl h.1
  | finite s m e =>
    rw [Double.lt_iff rfl hone, Double.lt_iff hten rfl, not_lt, not_lt]
    constructor
    · exact fun h _ => ⟨_, rfl, h⟩
    · intro h
      obtain ⟨q, hq, hb⟩ := h (by simp)
      obtain rfl := Option.some.inj hq
      exact hb

inductive TlsFile where
  | trust
  | certificate
  | key
  deriving DecidableEq, Repr

def TlsFile.path? (o : TlsOptions) : TlsFile → Option String
  | trust => o.trustCertificate
  | certificate => o.clientCertificate
  | key => o.clientKey

namespace ClientOptions

inductive Rule where
  | someService
  | serviceUrls
  | file (f : TlsFile)
  | filePair
  | initialDelay
  | maxDelay
  | multiplier
  | delayOrder
  | threshold
  | credentialPair
  | credentialPlace
  deriving DecidableEq, Repr

namespace Rule

def tls : List Rule := [file .trust, file .certificate, file .key] ++ [filePair]

def retry : List Rule := [initialDelay, maxDelay, multiplier] ++ [delayOrder]

/-- The rules about fields, and about the structures that are fields. -/
def parts : List Rule := [someService] ++ [serviceUrls] ++ tls ++ retry ++ [threshold]

def all : List Rule := parts ++ [credentialPair, credentialPlace]

/-- For a rule about a structure as a whole, the rules about what is in it. -/
def inner : Rule → List Rule
  | filePair => [file .trust, file .certificate, file .key]
  | delayOrder => [initialDelay, maxDelay, multiplier]
  | credentialPair | credentialPlace => parts
  | _ => []

def fault? (service : String) : Option String :=
  match Url.parseService service with
  | .error cause => some (cause.message service)
  | .ok _ => none

/-- The entry of the rule in a report. Of service URLs the first one with a fault is reported. -/
def finding (o : ClientOptions) : Rule → Finding
  | someService => ⟨"service", "At least one service URL is required"⟩
  | serviceUrls => ⟨"service", (o.service.findSome? fault?).getD ""⟩
  | file .trust => ⟨"tls.trust_certificate", "Trust certificate file does not exist"⟩
  | file .certificate => ⟨"tls.client_certificate", "Client certificate file does not exist"⟩
  | file .key => ⟨"tls.client_key", "Client key file does not exist"⟩
  | filePair => ⟨"tls.__all__", "Both client certificate and key must be provided or neither"⟩
  | initialDelay => ⟨"retry.initial_delay_ms", "Initial retry delay must be at least 1ms"⟩
  | maxDelay => ⟨"retry.max_delay_ms", "Maximum retry delay must be at least 1ms"⟩
  | multiplier => ⟨"retry.multiplier", "Multiplier must be between 1.0 and 10.0"⟩
  | delayOrder =>
    ⟨"retry.__all__", "Maximum retry delay must not be below the initial delay"⟩
  | threshold =>
    ⟨"send_backpressure_threshold", "Backpressure threshold must be at least 1"⟩
  | credentialPair => ⟨"__all__", "Both user and password must be provided or neither"⟩
  | credentialPlace =>
    ⟨"__all__", "Credentials given both as options and inside a service URL"⟩

def IsKept (isFile : FileCheck) (o : ClientOptions) : Rule → Prop
  | someService => o.service ≠ []
  | serviceUrls => ∀ service ∈ o.service, (Url.parseService service).isOk
  | file f => ∀ tls ∈ o.tls, ∀ path ∈ f.path? tls, path ≠ "" ∧ isFile path
  | filePair => ∀ tls ∈ o.tls, tls.clientCertificate.isSome = tls.clientKey.isSome
  | initialDelay => 1 ≤ o.retry.initialDelayMs
  | maxDelay => 1 ≤ o.retry.maxDelayMs
  | multiplier => o.retry.multiplier.IsBetween 1 10
  | delayOrder => o.retry.initialDelayMs ≤ o.retry.maxDelayMs
  | threshold => 1 ≤ o.sendBackpressureThreshold
  | credentialPair => o.user.isSome = o.password.isSome
  | credentialPlace => o.user.isSome ∧ o.password.isSome →
    ∀ service ∈ o.service, ∀ url ∈ (Url.parse service).toOption, url.username = ""

variable (isFile : FileCheck) (o : ClientOptions)

instance : (r : Rule) → Decidable (r.IsKept isFile o)
  | someService => inferInstanceAs (Decidable (o.service ≠ []))
  | serviceUrls =>
    inferInstanceAs (Decidable (∀ service ∈ o.service, (Url.parseService service).isOk))
  | file f =>
    inferInstanceAs (Decidable (∀ tls ∈ o.tls, ∀ path ∈ f.path? tls, path ≠ "" ∧ isFile path))
  | filePair => inferInstanceAs
    (Decidable (∀ tls ∈ o.tls, tls.clientCertificate.isSome = tls.clientKey.isSome))
  | initialDelay => inferInstanceAs (Decidable (1 ≤ o.retry.initialDelayMs))
  | maxDelay => inferInstanceAs (Decidable (1 ≤ o.retry.maxDelayMs))
  | multiplier => inferInstanceAs (Decidable (o.retry.multiplier.IsBetween 1 10))
  | delayOrder => inferInstanceAs (Decidable (o.retry.initialDelayMs ≤ o.retry.maxDelayMs))
  | threshold => inferInstanceAs (Decidable (1 ≤ o.sendBackpressureThreshold))
  | credentialPair => inferInstanceAs (Decidable (o.user.isSome = o.password.isSome))
  | credentialPlace => inferInstanceAs (Decidable (o.user.isSome ∧ o.password.isSome →
    ∀ service ∈ o.service, ∀ url ∈ (Url.parse service).toOption, url.username = ""))

/-- The rule is broken. A multiplier that is no number breaks none. -/
def IsBroken (r : Rule) : Prop :=
  ¬ r.IsKept isFile o ∧ ¬ (r = multiplier ∧ o.retry.multiplier = .nan)

instance (r : Rule) : Decidable (r.IsBroken isFile o) := inferInstanceAs (Decidable (_ ∧ _))

/-- The rule is broken, and no rule about what is in its structure is. -/
def IsReported (r : Rule) : Prop := r.IsBroken isFile o ∧ ∀ r' ∈ r.inner, ¬ r'.IsBroken isFile o

instance (r : Rule) : Decidable (r.IsReported isFile o) := inferInstanceAs (Decidable (_ ∧ _))

def reported : List Rule := all.filter fun r => r.IsReported isFile o

theorem mem_all (r : Rule) : r ∈ all := by
  cases r with
  | file f => cases f <;> decide
  | _ => decide

theorem nodup_all : all.Nodup := by decide

variable {isFile o}

theorem isBroken_iff {r : Rule} (h : r ≠ multiplier) : r.IsBroken isFile o ↔ ¬ r.IsKept isFile o :=
  and_iff_left fun hr => h hr.1

theorem isBroken_multiplier_iff : multiplier.IsBroken isFile o ↔ ¬ o.retry.multiplierInRange := by
  rw [RetryOptions.multiplierInRange_iff, IsBroken, IsKept, Classical.not_imp, and_comm]
  simp

theorem mem_reported {r : Rule} : r ∈ reported isFile o ↔ r.IsReported isFile o := by
  rw [reported, List.mem_filter, decide_eq_true_eq]
  exact and_iff_right r.mem_all

theorem nodup_reported : (reported isFile o).Nodup := nodup_all.filter _

theorem length_inner_lt {r r' : Rule} (h : r' ∈ r.inner) :
    r'.inner.length < r.inner.length := by
  have hall : ∀ r ∈ all, ∀ r' ∈ r.inner, r'.inner.length < r.inner.length := by decide
  exact hall r r.mem_all r' h

variable {rules wholes : List Rule}

/-- Where a rule is broken some rule is reported: that one, or one about a part of its structure. -/
theorem filter_isReported_eq_nil_iff (h : ∀ r ∈ rules, ∀ r' ∈ r.inner, r' ∈ rules) :
    rules.filter (fun r => r.IsReported isFile o) = [] ↔ ∀ r ∈ rules, ¬ r.IsBroken isFile o := by
  rw [List.filter_eq_nil_iff]
  constructor
  · intro hn r
    induction hl : r.inner.length using Nat.strong_induction_on generalizing r with
    | h n ih =>
      intro hr hb
      have hinner : ∀ r' ∈ r.inner, ¬ r'.IsBroken isFile o := fun r' hr' =>
        ih _ (hl ▸ length_inner_lt hr') r' rfl (h r hr r' hr')
      exact hn r hr (decide_eq_true ⟨hb, hinner⟩)
  · intro hn r hr hrep
    exact hn r hr (of_decide_eq_true hrep).1

theorem filter_isReported_of_fields (h : ∀ r ∈ rules, r.inner = []) :
    rules.filter (fun r => r.IsReported isFile o) =
      rules.filter fun r => r.IsBroken isFile o := by
  refine List.filter_congr fun r hr => decide_eq_decide.mpr ?_
  rw [IsReported, h r hr]
  exact and_iff_left nofun

/-- Rules about a structure as a whole count where those about what is in it are not broken. -/
theorem orElse_eq (hrules : ∀ r ∈ rules, ∀ r' ∈ r.inner, r' ∈ rules)
    (hwholes : ∀ r ∈ wholes, r.inner = rules) :
    Report.orElse ((rules.filter fun r => r.IsReported isFile o).map (finding o))
        ((wholes.filter fun r => r.IsBroken isFile o).map (finding o)) =
      ((rules ++ wholes).filter fun r => r.IsReported isFile o).map (finding o) := by
  rw [List.filter_append, List.map_append]
  by_cases hnil : rules.filter (fun r => r.IsReported isFile o) = []
  · have hnone := (filter_isReported_eq_nil_iff hrules).mp hnil
    have hw : wholes.filter (fun r => r.IsReported isFile o) =
        wholes.filter fun r => r.IsBroken isFile o := by
      refine List.filter_congr fun r hr => decide_eq_decide.mpr ?_
      rw [IsReported, hwholes r hr]
      exact and_iff_left hnone
    rw [hnil, hw]
    rfl
  · have hsome : ¬ ∀ r ∈ rules, ¬ r.IsBroken isFile o :=
      fun h => hnil ((filter_isReported_eq_nil_iff hrules).mpr h)
    have hw : wholes.filter (fun r => r.IsReported isFile o) = [] := by
      refine List.filter_eq_nil_iff.mpr fun r hr hrep => hsome ?_
      rw [← hwholes r hr]
      exact (of_decide_eq_true hrep).2
    rw [hw, List.map_nil, List.append_nil, Report.orElse, if_neg (by simpa using hnil)]

def entry (isFile : FileCheck) (o : ClientOptions) (r : Rule) : List Finding :=
  if r.IsBroken isFile o then [r.finding o] else []

theorem map_filter_isBroken :
    (rules.filter fun r => r.IsBroken isFile o).map (finding o) =
      rules.flatMap (entry isFile o) := by
  induction rules with
  | nil => rfl
  | cons r rules ih =>
    by_cases hb : r.IsBroken isFile o <;> simp [entry, hb, ih]

theorem entry_eq_require {r : Rule} {ok : Bool} (hok : ok = true ↔ ¬ r.IsBroken isFile o) :
    r.entry isFile o = Report.require ok (r.finding o).path (r.finding o).text := by
  cases ok with
  | true => rw [entry, if_neg (hok.mp rfl), Report.require, if_pos rfl]
  | false =>
    rw [entry, if_pos (Decidable.not_not.mp fun h => nomatch hok.mpr h), Report.require,
      if_neg Bool.false_ne_true]

theorem entry_eq_require_of_isKept {r : Rule} {ok : Bool} (hr : r ≠ multiplier)
    (hok : ok = true ↔ r.IsKept isFile o) :
    r.entry isFile o = Report.require ok (r.finding o).path (r.finding o).text :=
  entry_eq_require (by rw [hok, isBroken_iff hr, Decidable.not_not])

theorem map_require (name path text : String) (ok : Bool) :
    (Report.require ok path text).map (Finding.within name) =
      Report.require ok s!"{name}.{path}" text := by
  cases ok <;> rfl

theorem map_orElse (f : Finding → Finding) (parts whole : List Finding) :
    (Report.orElse parts whole).map f = Report.orElse (parts.map f) (whole.map f) := by
  cases parts <;> rfl

theorem map_findings_retry : o.retry.findings.map (Finding.within "retry") =
    (retry.filter fun r => r.IsReported isFile o).map (finding o) := by
  have hm : o.retry.multiplierInRange = true ↔ ¬ multiplier.IsBroken isFile o := by
    rw [isBroken_multiplier_iff, Decidable.not_not]
  rw [retry, ← orElse_eq (by decide) (by decide), filter_isReported_of_fields (by decide),
    map_filter_isBroken, map_filter_isBroken]
  simp only [List.flatMap_cons, List.flatMap_nil, List.append_nil]
  rw [entry_eq_require_of_isKept (r := initialDelay) (by decide) decide_eq_true_iff,
    entry_eq_require_of_isKept (r := maxDelay) (by decide) decide_eq_true_iff,
    entry_eq_require hm,
    entry_eq_require_of_isKept (r := delayOrder) (by decide) decide_eq_true_iff,
    RetryOptions.findings, map_orElse]
  simp only [List.map_append, map_require, List.append_assoc]
  rfl

theorem fileGiven_iff {path : Option String} :
    TlsOptions.fileGiven isFile path = true ↔ ∀ p ∈ path, p ≠ "" ∧ isFile p := by
  cases path <;> simp [TlsOptions.fileGiven]

theorem map_findings_tls :
    (o.tls.toList.flatMap (TlsOptions.findings isFile)).map (Finding.within "tls") =
      (tls.filter fun r => r.IsReported isFile o).map (finding o) := by
  cases ht : o.tls with
  | none => simp [tls, IsReported, IsBroken, IsKept, ht]
  | some tls =>
    have hfile (f : TlsFile) : TlsOptions.fileGiven isFile (f.path? tls) = true ↔
        (file f).IsKept isFile o := by simp [fileGiven_iff, IsKept, ht]
    have hpair : decide (tls.clientCertificate.isSome = tls.clientKey.isSome) = true ↔
        filePair.IsKept isFile o := by simp [IsKept, ht]
    rw [Rule.tls, ← orElse_eq (by decide) (by decide), filter_isReported_of_fields (by decide),
      map_filter_isBroken, map_filter_isBroken]
    simp only [List.flatMap_cons, List.flatMap_nil, List.append_nil, Option.toList_some]
    rw [entry_eq_require_of_isKept (by decide) (hfile .trust),
      entry_eq_require_of_isKept (by decide) (hfile .certificate),
      entry_eq_require_of_isKept (by decide) (hfile .key),
      entry_eq_require_of_isKept (by decide) hpair, TlsOptions.findings, map_orElse]
    simp only [List.map_append, map_require, List.append_assoc]
    rfl

theorem fault?_eq_none_iff {service : String} :
    fault? service = none ↔ (Url.parseService service).isOk := by
  unfold fault?
  cases Url.parseService service <;> simp [Except.isOk, Except.toBool]

theorem serviceFinding_eq (services : List String) :
    serviceFinding services = ((services.findSome? fault?).map (⟨"service", ·⟩)).toList := by
  rw [serviceFinding, List.map_findSome?]
  congr 2
  funext service
  rw [Function.comp_apply]
  unfold fault?
  cases Url.parseService service <;> rfl

variable (isFile) in
theorem serviceFinding_eq_entry : serviceFinding o.service = serviceUrls.entry isFile o := by
  have hbroken : serviceUrls.IsBroken isFile o ↔ o.service.findSome? fault? ≠ none := by
    rw [isBroken_iff (by decide), Ne, List.findSome?_eq_none_iff]
    exact not_congr (forall₂_congr fun _ _ => fault?_eq_none_iff.symm)
  simp only [serviceFinding_eq, entry, hbroken, finding]
  cases o.service.findSome? fault? <;> rfl

variable (isFile) in
theorem credentialFindings_eq : o.credentialFindings =
    credentialPair.entry isFile o ++ credentialPlace.entry isFile o := by
  have hplace : (!(o.user.isSome && o.password.isSome && hasUserInService o.service)) = true ↔
      credentialPlace.IsKept isFile o := by
    simp only [IsKept, Bool.not_eq_true', Bool.and_eq_false_imp, Bool.and_eq_true,
      hasUserInService, List.any_eq_false]
    refine imp_congr_right fun _ => forall₂_congr fun service _ => ?_
    cases Url.parse service <;> simp [Except.toOption]
  rw [entry_eq_require_of_isKept (r := credentialPair) (by decide) decide_eq_true_iff,
    entry_eq_require_of_isKept (by decide) hplace]
  rfl

/-- What validation finds are the entries of the rules that are reported. -/
theorem findings_eq : o.findings isFile = (reported isFile o).map (finding o) := by
  have hone (r : Rule) (hr : r.inner = []) :
      ([r].filter fun r => r.IsReported isFile o).map (finding o) = r.entry isFile o := by
    rw [filter_isReported_of_fields (by simpa using hr), map_filter_isBroken,
      List.flatMap_singleton]
  have hservice : Report.require (!o.service.isEmpty) "service"
      "At least one service URL is required" = someService.entry isFile o :=
    (entry_eq_require_of_isKept (r := someService) (by decide) (by simp [IsKept])).symm
  have hthreshold : Report.require (1 ≤ o.sendBackpressureThreshold) "send_backpressure_threshold"
      "Backpressure threshold must be at least 1" = threshold.entry isFile o :=
    (entry_eq_require_of_isKept (r := threshold) (by decide) decide_eq_true_iff).symm
  have hparts : (parts.filter fun r => r.IsReported isFile o).map (finding o) =
      someService.entry isFile o ++ serviceUrls.entry isFile o ++
        (tls.filter fun r => r.IsReported isFile o).map (finding o) ++
          (retry.filter fun r => r.IsReported isFile o).map (finding o) ++
            threshold.entry isFile o := by
    simp only [parts, List.filter_append, List.map_append, hone someService rfl,
      hone serviceUrls rfl, hone threshold rfl]
  rw [reported, all, ← orElse_eq (by decide) (by decide), map_filter_isBroken, hparts, findings,
    hservice, hthreshold, serviceFinding_eq_entry isFile, ← map_findings_tls,
    ← map_findings_retry, credentialFindings_eq isFile, List.flatMap_cons, List.flatMap_singleton]

theorem reported_eq_nil_iff : reported isFile o = [] ↔ ∀ r : Rule, ¬ r.IsBroken isFile o := by
  rw [reported, filter_isReported_eq_nil_iff fun _ _ r' _ => r'.mem_all]
  exact ⟨fun h r => h r r.mem_all, fun h r _ => h r⟩

end Rule

variable {isFile : FileCheck} {generated : String} {o : ClientOptions}

theorem validated_of_bad_id {id : String} (hid : o.id = some id)
    (h : ¬ ClientId.IsWellFormed id) :
    ∃ text, o.validated isFile generated = .error (.argument text) := by
  obtain ⟨text, ht⟩ := ClientId.check_of_not_isWellFormed h
  refine ⟨text, ?_⟩
  have hcheck : o.id.forM ClientId.check = .error (.argument text) := by rw [hid]; exact ht
  rw [validated, hcheck]
  rfl

theorem forM_check_eq_ok_iff :
    o.id.forM ClientId.check = .ok () ↔ ∀ id ∈ o.id, ClientId.IsWellFormed id := by
  cases hid : o.id with
  | none => exact ⟨fun _ => nofun, fun _ => rfl⟩
  | some id => simp [Option.forM, ClientId.check_eq_ok_iff_isWellFormed]

theorem validated_of_findings (hid : ∀ id ∈ o.id, ClientId.IsWellFormed id)
    (h : o.findings isFile ≠ []) :
    o.validated isFile generated = .error (.config (Report.text (o.findings isFile))) := by
  rw [validated, forM_check_eq_ok_iff.mpr hid]
  have he : (o.findings isFile).isEmpty = false := by simpa using h
  change (if (o.findings isFile).isEmpty = true then _ else _) = _
  rw [if_neg (by simp [he])]

/-- How options are validated, where one without an id is given a generated one. -/
structure ValidatedExactly (isFile : FileCheck) (n : Nat) (o : ClientOptions) : Prop where
  /-- A multiplier that is no number counts as one in range. -/
  accepted : (∃ o', o.validated isFile (ClientId.generate n) = .ok o') ↔
    (∀ id ∈ o.id, ClientId.IsWellFormed id) ∧
      ∀ r : Rule, r.IsKept isFile o ∨ (r = .multiplier ∧ o.retry.multiplier = .nan)
  /-- Only the id is filled in, and validating the result once more leaves it as it is. -/
  result : ∀ o', o.validated isFile (ClientId.generate n) = .ok o' →
    o' = { o with id := some (o.id.getD (ClientId.generate n)) } ∧
      (∃ id, o'.id = some id ∧ ClientId.check id = .ok ()) ∧
        ∀ m, o'.validated isFile (ClientId.generate m) = .ok o'
  /-- A malformed id is an error of its own, whatever else is wrong. -/
  malformed : ∀ id ∈ o.id, ¬ ClientId.IsWellFormed id →
    ∃ text, o.validated isFile (ClientId.generate n) = .error (.argument text)
  /-- Everything else is in one report, with one entry for every rule that counts. -/
  report : (∀ id ∈ o.id, ClientId.IsWellFormed id) → (∃ r : Rule, r.IsBroken isFile o) →
    ∃ rules : List Rule, rules ≠ [] ∧ rules.Nodup ∧ (∀ r, r ∈ rules ↔ r.IsReported isFile o) ∧
      o.validated isFile (ClientId.generate n) =
        .error (.config (Report.text (rules.map (·.finding o))))

theorem validated_exactly (isFile : FileCheck) (n : Nat) (o : ClientOptions) :
    ValidatedExactly isFile n o := by
  have hnil : o.findings isFile = [] ↔ ∀ r : Rule, ¬ r.IsBroken isFile o := by
    rw [Rule.findings_eq, List.map_eq_nil_iff, Rule.reported_eq_nil_iff]
  constructor
  case accepted =>
    have hkept : (∀ r : Rule, ¬ r.IsBroken isFile o) ↔
        ∀ r : Rule, r.IsKept isFile o ∨ (r = .multiplier ∧ o.retry.multiplier = .nan) :=
      forall_congr' fun r => by rw [Rule.IsBroken, not_and_or, not_not, not_not]
    rw [← hkept, ← hnil, ← forM_check_eq_ok_iff]
    constructor
    · rintro ⟨o', h⟩
      obtain ⟨hid, hf, -⟩ := validated_eq_ok_iff.mp h
      exact ⟨hid, hf⟩
    · rintro ⟨hid, hf⟩
      exact ⟨_, validated_eq_ok_iff.mpr ⟨hid, hf, rfl⟩⟩
  case result =>
    intro o' h
    obtain ⟨hid, hf, rfl⟩ := validated_eq_ok_iff.mp h
    have hcheck : ClientId.check (o.id.getD (ClientId.generate n)) = .ok () := by
      rw [ClientId.check_eq_ok_iff_isWellFormed]
      cases ho : o.id with
      | none => exact ClientId.isWellFormed_generate n
      | some id => exact forM_check_eq_ok_iff.mp hid id ho
    refine ⟨rfl, ⟨_, rfl, hcheck⟩, fun m => ?_⟩
    exact validated_eq_ok_iff.mpr ⟨hcheck, hf, rfl⟩
  case malformed =>
    intro id hid h
    exact validated_of_bad_id hid h
  case report =>
    rintro hid ⟨r, hr⟩
    have hsome : o.findings isFile ≠ [] := fun h => hnil.mp h r hr
    refine ⟨Rule.reported isFile o, ?_, Rule.nodup_reported, fun _ => Rule.mem_reported, ?_⟩
    · rw [Rule.findings_eq] at hsome
      exact fun h => hsome (by rw [h, List.map_nil])
    · rw [validated_of_findings hid hsome, Rule.findings_eq]

/-- The rule on both delays waits for each of them to be in order, that on credentials for all. -/
example : Rule.reported (fun _ => false)
    { service := [], user := some "u", retry := { initialDelayMs := 2, maxDelayMs := 0 } } =
      [.someService, .maxDelay] := by
  decide +kernel

/-- Options with a multiplier that is no number are accepted. -/
theorem accepted_without_multiplier :
    ∃ o : ClientOptions, o = { retry := { multiplier := .nan } } ∧
      ¬ o.retry.multiplier.IsBetween 1 10 ∧
        o.validated (fun _ => false) (ClientId.generate 0) =
          .ok { o with id := some (ClientId.generate 0) } := by
  refine ⟨_, rfl, by decide, ?_⟩
  decide +kernel

end ClientOptions

end PubSub
