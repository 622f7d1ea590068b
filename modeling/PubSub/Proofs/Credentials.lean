import Mathlib.Tactic.SplitIfs
import PubSub.Proofs.Validated

/-! # Credentials

Credentials are a user name with a password. Options give both or neither, and
so does a service URL, unless it names a user without a password or gives a
password without a user. Except for such URLs an endpoint has all of the
credentials of its URL, or else all of those of the options, and options that
are accepted give them in one place only.
-/

namespace PubSub

namespace Url

def credentials (url : Url) : Option String × Option String :=
  (if url.username = "" then none else some url.username, url.password)

def hasCredentials (url : Url) : Bool := url.username ≠ "" || url.password.isSome

def hasUserAlone (url : Url) : Bool := url.username ≠ "" && url.password.isNone

def hasPasswordAlone (url : Url) : Bool := url.username = "" && url.password.isSome

end Url

namespace Endpoint

variable {url : Url} {o : ClientOptions}

/-- The credentials of an endpoint: both of them, or none. -/
def IsComplete (e : Endpoint) : Prop := e.user.isSome = e.password.isSome

theorem isComplete_ofUrl_iff (h : o.user.isSome = o.password.isSome) :
    (ofUrl url o).IsComplete ↔ ¬ url.hasUserAlone := by
  by_cases hu : url.username = ""
  · simp [IsComplete, ofUrl, credentials, Url.hasUserAlone, hu, h]
  · cases hp : url.password <;> simp [IsComplete, ofUrl, credentials, Url.hasUserAlone, hu, hp]

theorem credentials_ofUrl_iff (h : o.user.isSome = o.password.isSome) :
    ((ofUrl url o).user, (ofUrl url o).password) =
        (if url.hasCredentials then url.credentials else (o.user, o.password)) ↔
      ¬ url.hasPasswordAlone := by
  by_cases hu : url.username = ""
  · cases hp : url.password with
    | none => simp [ofUrl, credentials, Url.hasCredentials, Url.hasPasswordAlone, hu, hp]
    | some p =>
      -- The URL has a password and no user, the options have both or neither.
      have hne : (o.user, o.password) ≠ (none, some p) := by
        rintro heq
        obtain ⟨hn, hs⟩ := Prod.mk.inj heq
        simp [hn, hs] at h
      simpa [ofUrl, credentials, Url.credentials, Url.hasCredentials, Url.hasPasswordAlone, hu, hp]
        using hne
  · simp [ofUrl, credentials, Url.credentials, Url.hasCredentials, Url.hasPasswordAlone, hu]

end Endpoint

theorem Url.parse_of_parseService {service : String} {url : Url}
    (h : Url.parseService service = .ok url) : Url.parse service = .ok url := by
  unfold parseService at h
  split at h
  · cases h
  · next url' hp =>
    split_ifs at h
    obtain rfl := Except.ok.inj h
    exact hp

namespace ClientOptions

def hasService (o : ClientOptions) (p : Url → Bool) : Bool :=
  o.service.any fun service => (Url.parseService service).toOption.any p

def suppliesTwice (o : ClientOptions) : Bool :=
  (o.user.isSome || o.password.isSome) && o.hasService Url.hasCredentials

variable {isFile : FileCheck} {generated : String} {o o' : ClientOptions}

theorem hasService_iff {p : Url → Bool} : o.hasService p ↔
    ∃ service ∈ o.service, ∃ url, Url.parseService service = .ok url ∧ p url := by
  rw [hasService, List.any_eq_true]
  refine exists_congr fun service => and_congr_right fun _ => ?_
  cases Url.parseService service with
  | error e => exact ⟨nofun, nofun⟩
  | ok url => exact ⟨fun h => ⟨url, rfl, h⟩, fun ⟨_, hu, h⟩ => Except.ok.inj hu ▸ h⟩

/-- Accepted options with credentials have no URL that names a user. -/
theorem username_of_validated (h : o.validated isFile generated = .ok o') (hu : o'.user.isSome)
    {service : String} (hs : service ∈ o'.service) {url : Url}
    (hp : Url.parseService service = .ok url) : url.username = "" := by
  obtain ⟨-, -, -, -, -, hc⟩ := findings_eq_nil_iff.mp (findings_of_validated h)
  have hn := (credentialFindings_eq_nil_iff.mp hc).2 hu
  refine Decidable.byContradiction fun hne => hn ?_
  rw [hasUserInService, List.any_eq_true]
  exact ⟨service, hs, by rw [Url.parse_of_parseService hp]; exact decide_eq_true hne⟩

structure CredentialsKept (o : ClientOptions) : Prop where
  /-- An endpoint has both or none, unless its URL names a user alone. -/
  complete : ∀ service ∈ o.service, ∃ url e, Url.parseService service = .ok url ∧
    Endpoint.ofService service o = .ok e ∧ (e.IsComplete ↔ ¬ url.hasUserAlone)
  /-- The credentials of a URL come first, unless it has a password alone, which is dropped. -/
  exact : ∀ service ∈ o.service, ∃ url e, Url.parseService service = .ok url ∧
    Endpoint.ofService service o = .ok e ∧
      ((e.user, e.password) = (if url.hasCredentials then url.credentials
        else (o.user, o.password)) ↔ ¬ url.hasPasswordAlone)
  /-- There are credentials in two places only where a URL has a password alone. -/
  once : o.suppliesTwice ↔ o.user.isSome ∧ o.hasService Url.hasPasswordAlone

theorem credentials_kept (h : o.validated isFile generated = .ok o') : o'.CredentialsKept := by
  obtain ⟨-, -, -, -, -, hc⟩ := findings_eq_nil_iff.mp (findings_of_validated h)
  have hboth := (credentialFindings_eq_nil_iff.mp hc).1
  constructor
  case complete =>
    intro service hs
    obtain ⟨url, hp⟩ := parseService_of_validated h hs
    exact ⟨url, _, hp, Endpoint.ofService_of_parse o' hp, Endpoint.isComplete_ofUrl_iff hboth⟩
  case exact =>
    intro service hs
    obtain ⟨url, hp⟩ := parseService_of_validated h hs
    exact ⟨url, _, hp, Endpoint.ofService_of_parse o' hp, Endpoint.credentials_ofUrl_iff hboth⟩
  case once =>
    rw [suppliesTwice, Bool.and_eq_true, Bool.or_eq_true, ← hboth, or_self, hasService_iff,
      hasService_iff]
    refine and_congr_right fun hu => ?_
    constructor
    · rintro ⟨service, hs, url, hp, hcred⟩
      have hname := username_of_validated h hu hs hp
      exact ⟨service, hs, url, hp, by
        simpa [Url.hasCredentials, Url.hasPasswordAlone, hname] using hcred⟩
    · rintro ⟨service, hs, url, hp, halone⟩
      rw [Url.hasPasswordAlone, Bool.and_eq_true] at halone
      exact ⟨service, hs, url, hp, by rw [Url.hasCredentials, halone.2, Bool.or_true]⟩

/-- Services with a user and a password, with neither, and with one of them alone. -/
def fourServices : ClientOptions where
  service := ["amqp://joe:pw@a", "amqps://b", "amqp://joe@c", "amqp://:pw@d"]

theorem credentials_kept_fourServices : ∃ o, fourServices.validated (fun _ => false) "x" = .ok o ∧
    o.hasService Url.hasUserAlone ∧ o.hasService Url.hasPasswordAlone ∧ o.CredentialsKept := by
  have hv : fourServices.validated (fun _ => false) "x" = .ok { fourServices with id := "x" } := by
    decide +kernel
  exact ⟨_, hv, by decide +kernel, by decide +kernel, credentials_kept hv⟩

/-- A password alone is dropped where the options have none, and passed over where they have
credentials themselves; a user alone is taken without a password. -/
theorem credentials_dropped :
    (∃ o url e, ofService "amqp://:secret@localhost" = o ∧
      o.validated (fun _ => false) "x" = .ok { o with id := some "x" } ∧
      Url.parseService "amqp://:secret@localhost" = .ok url ∧ url.hasCredentials ∧
        Endpoint.ofService "amqp://:secret@localhost" o = .ok e ∧
          (e.user, e.password) ≠ url.credentials) ∧
    (∃ o, (ofService "amqp://:secret@localhost").withCredentials "u" "p" = o ∧
      o.validated (fun _ => false) "x" = .ok { o with id := some "x" } ∧ o.suppliesTwice) ∧
    ∃ o e, ofService "amqp://joe@localhost" = o ∧
      o.validated (fun _ => false) "x" = .ok { o with id := some "x" } ∧
        Endpoint.ofService "amqp://joe@localhost" o = .ok e ∧ ¬ e.IsComplete := by
  refine ⟨?_, ⟨_, rfl, by decide +kernel, by decide +kernel⟩, ?_⟩
  · have hp : Url.parseService "amqp://:secret@localhost" =
        .ok ⟨"amqp", "", "secret", "localhost", none, ""⟩ := by decide +kernel
    exact ⟨_, _, _, rfl, by decide +kernel, hp, by decide +kernel,
      Endpoint.ofService_of_parse _ hp, by decide⟩
  · have hp : Url.parseService "amqp://joe@localhost" =
        .ok ⟨"amqp", "joe", none, "localhost", none, ""⟩ := by decide +kernel
    exact ⟨_, _, rfl, by decide +kernel, Endpoint.ofService_of_parse _ hp, by
      simp [Endpoint.IsComplete, Endpoint.ofUrl, Endpoint.credentials]⟩

end ClientOptions

end PubSub
