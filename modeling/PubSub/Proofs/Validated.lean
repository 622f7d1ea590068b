import PubSub.Options.Validation
import PubSub.Rotation

/-! # Options that are accepted

Options are accepted if there is no finding in them. Here it is said of each
part what that means, and that services which are accepted can be connected to.
-/

namespace PubSub

theorem Finding.map_within_eq_nil_iff {name : String} {findings : List Finding} :
    findings.map (Finding.within name) = [] ↔ findings = [] := List.map_eq_nil_iff

namespace RetryOptions

theorem findings_eq_nil_iff {o : RetryOptions} : o.findings = [] ↔
    1 ≤ o.initialDelayMs ∧ o.initialDelayMs ≤ o.maxDelayMs ∧ o.multiplierInRange := by
  simp only [findings, Report.orElse_eq_nil_iff, List.append_eq_nil_iff,
    Report.require_eq_nil_iff, decide_eq_true_eq]
  constructor
  · rintro ⟨⟨⟨hi, -⟩, hm⟩, hle⟩
    exact ⟨hi, hle, hm⟩
  · rintro ⟨hi, hle, hm⟩
    exact ⟨⟨⟨hi, Nat.le_trans hi hle⟩, hm⟩, hle⟩

end RetryOptions

namespace ClientOptions

variable {isFile : FileCheck} {generated : String} {o o' : ClientOptions}

theorem serviceFinding_eq_nil_iff {services : List String} :
    serviceFinding services = [] ↔ ∀ s ∈ services, ∃ url, Url.parseService s = .ok url := by
  rw [serviceFinding, Option.toList_eq_nil_iff, List.findSome?_eq_none_iff]
  refine forall₂_congr fun s _ => ?_
  cases Url.parseService s <;> simp

theorem credentialFindings_eq_nil_iff : o.credentialFindings = [] ↔
    o.user.isSome = o.password.isSome ∧ (o.user.isSome → ¬ hasUserInService o.service) := by
  simp only [credentialFindings, List.append_eq_nil_iff, Report.require_eq_nil_iff,
    decide_eq_true_eq]
  refine and_congr_right fun h => ?_
  rw [← h]
  cases o.user.isSome <;> simp

theorem findings_eq_nil_iff : o.findings isFile = [] ↔
    o.service ≠ [] ∧ serviceFinding o.service = [] ∧
      (∀ tls ∈ o.tls, tls.findings isFile = []) ∧ o.retry.findings = [] ∧
        1 ≤ o.sendBackpressureThreshold ∧ o.credentialFindings = [] := by
  simp only [findings, Report.orElse_eq_nil_iff, List.append_eq_nil_iff,
    Report.require_eq_nil_iff, Finding.map_within_eq_nil_iff, List.flatMap_eq_nil_iff,
    decide_eq_true_eq, Option.mem_toList, Option.mem_def, Bool.not_eq_true',
    List.isEmpty_eq_false_iff, and_assoc]

/-- Accepted options are those without a finding, with an id. -/
theorem validated_eq_ok_iff : o.validated isFile generated = .ok o' ↔
    o.id.forM ClientId.check = .ok () ∧ o.findings isFile = [] ∧
      o' = { o with id := some (o.id.getD generated) } := by
  unfold validated
  cases hid : o.id.forM ClientId.check with
  | error e =>
    simp only [reduceCtorEq, false_and, iff_false]
    exact nofun
  | ok u =>
    cases hf : o.findings isFile with
    | nil =>
      simp only [true_and]
      exact ⟨fun h => (Except.ok.inj h).symm, fun h => congrArg _ h.symm⟩
    | cons f fs =>
      simp only [reduceCtorEq, false_and, and_false, iff_false]
      exact nofun

theorem findings_of_validated (h : o.validated isFile generated = .ok o') :
    o'.findings isFile = [] := by
  obtain ⟨-, hf, rfl⟩ := validated_eq_ok_iff.mp h
  exact hf

theorem parseService_of_validated (h : o.validated isFile generated = .ok o') {service : String}
    (hs : service ∈ o'.service) : ∃ url, Url.parseService service = .ok url :=
  serviceFinding_eq_nil_iff.mp (findings_eq_nil_iff.mp (findings_of_validated h)).2.1 service hs

end ClientOptions

theorem Endpoint.ofService_of_parse {service : String} {url : Url} (o : ClientOptions)
    (h : Url.parseService service = .ok url) : ofService service o = .ok (ofUrl url o) := by
  rw [ofService, h]

end PubSub
