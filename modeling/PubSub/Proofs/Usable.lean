import Mathlib.Data.List.Forall2
import PubSub.Proofs.Credentials
import PubSub.Proofs.Secrets

/-! # Accepted options can be used

Options that are accepted list servers that can be connected to, one for every
service URL. So a program that loads its configuration, and writes to the
console alone, reports every one of them in order and ends well.
-/

namespace PubSub

theorem exists_of_bind_eq_ok {ε α β : Type} {x : Except ε α} {f : α → Except ε β} {b : β}
    (h : x >>= f = .ok b) : ∃ a, x = .ok a ∧ f a = .ok b := by
  cases x with
  | error e => cases h
  | ok a => exact ⟨a, rfl, h⟩

section Lines

/-- The text breaks no line. -/
def IsLine (s : String) : Prop := '\n' ∉ s.toList

instance (s : String) : Decidable (IsLine s) := inferInstanceAs (Decidable (_ ∉ _))

@[simp]
theorem isLine_append {s t : String} : IsLine (s ++ t) ↔ IsLine s ∧ IsLine t := by
  simp [IsLine]

@[simp]
theorem isLine_toString {s : String} : IsLine (toString s) ↔ IsLine s := .rfl

@[simp]
theorem isLine_repr (n : Nat) : IsLine n.repr := by
  intro h
  have hd : '\n' ∈ Nat.toDigits 10 n := by simpa [Nat.repr] using h
  exact absurd (Nat.isDigit_of_mem_toDigits (by decide) (by decide) hd) (by decide)

theorem isLine_hexText (n : Nat) : IsLine (Hex.ofNat n) := by
  intro h
  rw [Hex.toList_ofNat] at h
  exact absurd (Hex.isSome_value?_of_mem h) (by decide)

theorem split_of_isLine {s : String} (h : IsLine s) : split '\n' s = [s] := by
  rw [split, List.splitOn_eq_singleton h, List.map_singleton, String.ofList_toList]

theorem split_append_break (s t : String) :
    split '\n' (s ++ "\n" ++ t) = split '\n' s ++ split '\n' t := by
  have hl : (s ++ "\n" ++ t).toList = s.toList ++ '\n' :: t.toList := by simp
  rw [split, hl, List.splitOn_append_cons_self, List.map_append]
  rfl

end Lines

namespace Percent

theorem isLine_encode {reserved : UInt8 → Bool} (hr : ∀ b, isControl b → reserved b)
    (s : List Char) : IsLine (String.ofList (encode reserved s)) := by
  have hdigit : ∀ n < 16, upperDigit n ≠ '\n' := by decide
  have hplain : ∀ n < 256, 32 ≤ n → Char.ofNat n ≠ '\n' := by decide +kernel
  rw [IsLine, String.toList_ofList, encode, List.mem_flatMap]
  rintro ⟨b, -, hb⟩
  have hlt := b.toNat_lt
  unfold encodeByte at hb
  split at hb
  · simp only [List.mem_cons, List.not_mem_nil, or_false] at hb
    rcases hb with hb | hb | hb
    · exact absurd hb (by decide)
    · exact hdigit _ (by omega) hb.symm
    · exact hdigit _ (by omega) hb.symm
  · next hb' =>
    rw [List.mem_singleton] at hb
    refine hplain b.toNat hlt ?_ hb.symm
    have hc : ¬ isControl b := fun h => hb' (hr b h)
    simp only [isControl, Bool.or_eq_true, decide_eq_true_eq, not_or, UInt8.lt_iff_toNat_lt,
      not_lt] at hc
    exact hc.1

end Percent

namespace Host

theorem isLine_joinPieces (pieces : List Nat) : IsLine (joinPieces pieces) := by
  rw [IsLine, joinPieces, String.toList_intercalate]
  induction pieces with
  | nil => simp
  | cons n pieces ih =>
    have hn : '\n' ∉ (Hex.ofNat n).toList := isLine_hexText n
    cases pieces with
    | nil => simpa using hn
    | cons m pieces =>
      simp only [List.map_cons, List.intercalate_cons_cons, List.mem_append, not_or] at ih ⊢
      exact ⟨⟨hn, by decide⟩, ih⟩

theorem isLine_bracketed {s : List Char} {host : String} (h : bracketed s = .ok host) :
    IsLine host := by
  unfold bracketed at h
  split at h
  · cases h
  · split at h
    · cases h
    · next pieces _ =>
      obtain rfl := Except.ok.inj h
      have hpieces : IsLine (ipv6Text pieces) := by
        unfold ipv6Text
        split
        split
        · exact isLine_joinPieces pieces
        · simp only [isLine_append]
          exact ⟨⟨isLine_joinPieces _, by decide⟩, isLine_joinPieces _⟩
      exact isLine_append.mpr ⟨isLine_append.mpr ⟨by decide, hpieces⟩, by decide⟩

theorem isLine_opaqueHost {s : List Char} {host : String} (h : opaqueHost s = .ok host) :
    IsLine host := by
  unfold opaqueHost at h
  split at h
  · exact isLine_bracketed h
  · split at h
    · cases h
    · obtain rfl := Except.ok.inj h
      exact Percent.isLine_encode (fun _ => id) s

end Host

namespace Url

variable {scheme service text : String} {kind : SchemeKind} {s : List Char} {url : Url}

structure HasAuthority (scheme : String) (kind : SchemeKind) (url : Url) : Prop where
  scheme : url.scheme = scheme
  username : url.username = "" ∨ ∃ info, url.username = (userinfo info).1
  host : ∃ text host,
    (if kind = .special then Host.domain text else Host.opaqueHost text) = .ok host ∧
      url.host = if host = "" then none else some host

theorem hasAuthority_of_withAuthority (h : withAuthority scheme kind s = .ok url) :
    HasAuthority scheme kind url := by
  unfold withAuthority at h
  extract_lets backslash at h
  split at h
  next authority rest _ =>
  extract_lets build at h
  have hbuild (credentials : String × Option String) (address : List Char)
      (hname : credentials.1 = "" ∨ ∃ info, credentials.1 = (userinfo info).1)
      (hb : build (credentials, address) = .ok url) : HasAuthority scheme kind url := by
    simp -zeta only [build] at hb
    extract_lets finish host at hb
    have hfinish (text : List Char) (host : String)
        (hh : (if kind = .special then Host.domain text else Host.opaqueHost text) = .ok host)
        (hf : finish host = .ok url) : HasAuthority scheme kind url := by
      dsimp only [finish] at hf
      split at hf
      · cases hf
      · obtain ⟨port, -, hf⟩ := exists_of_bind_eq_ok hf
        split at hf
        · cases hf
        · obtain rfl := Except.ok.inj hf
          exact ⟨rfl, hname, text, host, hh, rfl⟩
    split at hb
    · cases hb
    · dsimp only [host] at hb
      split at hb
      all_goals
        next hk =>
        obtain ⟨name, hh, hf⟩ := exists_of_bind_eq_ok hb
        exact hfinish _ name (by simpa only [hk, if_true, if_false] using hh) hf
  split at h
  · exact hbuild _ _ (.inl rfl) h
  · split at h
    · cases h
    · exact hbuild _ _ (.inl rfl) h
  · exact hbuild _ _ (.inr ⟨_, rfl⟩) h

theorem scheme_of_fileUrl (h : fileUrl scheme s = .ok url) : url.scheme = scheme := by
  unfold fileUrl at h
  dsimp only at h
  split at h
  · split at h
    · split at h
      · cases h
        rfl
      · obtain ⟨host, -, h⟩ := exists_of_bind_eq_ok h
        cases h
        rfl
    · cases h
      rfl
  · cases h
    rfl

theorem isLine_userinfo (info : List Char) : IsLine (userinfo info).1 := by
  have hr : ∀ b, Percent.isControl b → Percent.isReservedInUserinfo b := fun b hb => by
    rw [Percent.isReservedInUserinfo, hb, Bool.true_or]
  unfold userinfo
  split <;> exact Percent.isLine_encode hr _

/-- A service URL has an authority of its own, with a host that is not empty. -/
theorem authority_of_parseService (h : parseService service = .ok url) :
    parse service = .ok url ∧ (url.scheme = "amqp" ∨ url.scheme = "amqps") ∧
      HasAuthority url.scheme .ordinary url ∧ ∃ host, url.host = some host ∧ host ≠ "" := by
  have hparse := parse_of_parseService h
  unfold parseService at h
  rw [hparse] at h
  dsimp only at h
  split at h
  · cases h
  next hs =>
  split at h
  · cases h
  next hhost =>
  have hscheme : url.scheme = "amqp" ∨ url.scheme = "amqps" :=
    Decidable.or_iff_not_imp_left.mpr (by simpa [isSupported] using hs)
  have hkind : schemeKind url.scheme = .ordinary := by
    rcases hscheme with hscheme | hscheme <;> rw [hscheme] <;> decide
  have hauthority : HasAuthority url.scheme .ordinary url := by
    unfold parse at hparse
    split at hparse
    · cases hparse
    · next scheme rest _ =>
      split at hparse
      · next hfile =>
        rw [scheme_of_fileUrl hparse, hfile] at hkind
        cases hkind
      · next hspecial =>
        rw [(hasAuthority_of_withAuthority hparse).scheme, hspecial] at hkind
        cases hkind
      · split at hparse
        · have ha := hasAuthority_of_withAuthority hparse
          rwa [ha.scheme]
        · obtain rfl := Except.ok.inj hparse
          exact absurd rfl hhost
  refine ⟨hparse, hscheme, hauthority, ?_⟩
  obtain ⟨text, host, -, he⟩ := hauthority.host
  rw [he] at hhost ⊢
  split at hhost
  · exact absurd rfl hhost
  · next hne => exact ⟨host, if_neg hne, hne⟩

end Url

theorem forall₂_of_mapM {ε α β : Type} {f : α → Except ε β} {as : List α} {bs : List β}
    (h : as.mapM f = .ok bs) : List.Forall₂ (fun a b => f a = .ok b) as bs := by
  induction as generalizing bs with
  | nil =>
    cases h
    exact .nil
  | cons a as ih =>
    rw [List.mapM_cons] at h
    obtain ⟨b, hb, h⟩ := exists_of_bind_eq_ok h
    obtain ⟨bs', hbs, h⟩ := exists_of_bind_eq_ok h
    cases h
    exact .cons hb (ih hbs)

theorem exists_of_forall₂_of_mem {α β : Type} {R : α → β → Prop} {as : List α} {bs : List β}
    (h : List.Forall₂ R as bs) {b : β} (hb : b ∈ bs) : ∃ a ∈ as, R a b := by
  induction h with
  | nil => cases hb
  | cons hr _ ih =>
    rcases List.mem_cons.mp hb with rfl | hb
    · exact ⟨_, List.mem_cons_self, hr⟩
    · obtain ⟨a, ha, hr⟩ := ih hb
      exact ⟨a, List.mem_cons_of_mem _ ha, hr⟩

theorem mapM_of_forall {ε α β : Type} {f : α → Except ε β} {as : List α}
    (h : ∀ a ∈ as, ∃ b, f a = .ok b) : ∃ bs, as.mapM f = .ok bs := by
  induction as with
  | nil => exact ⟨[], rfl⟩
  | cons a as ih =>
    obtain ⟨⟨b, hb⟩, has⟩ := List.forall_mem_cons.mp h
    obtain ⟨bs, hbs⟩ := ih has
    exact ⟨b :: bs, by rw [List.mapM_cons, hb, hbs]; rfl⟩

namespace Endpoint

/-- The endpoint is the server that the service URL names, with the files of the options. -/
structure Serves (o : ClientOptions) (service : String) (e : Endpoint) : Prop where
  url : ∃ url, Url.parse service = .ok url ∧ (url.scheme = "amqp" ∨ url.scheme = "amqps") ∧
    (e.tls ↔ url.scheme = "amqps") ∧
      e.port = url.port.getD (if url.scheme = "amqps" then 5671 else 5672) ∧
        url.host = some e.host
  host : e.host ≠ ""
  /-- Without options for encrypted connections there are no files, and names are verified. -/
  files : (e.trustCertificate, e.clientCertificate, e.clientKey, e.verifyName) =
    match o.tls with
    | none => (none, none, none, true)
    | some tls => (tls.trustCertificate, tls.clientCertificate, tls.clientKey, tls.verifyName)

theorem serves_ofService {o : ClientOptions} {service : String} {e : Endpoint}
    (h : ofService service o = .ok e) : e.Serves o service := by
  unfold ofService at h
  split at h
  · cases h
  · next url hp =>
    obtain rfl := Except.ok.inj h
    obtain ⟨hparse, hscheme, -, host, hhost, hne⟩ := Url.authority_of_parseService hp
    have he : (ofUrl url o).host = host := by rw [ofUrl, hhost, Option.getD_some]
    constructor
    case url =>
      refine ⟨url, hparse, hscheme, by simp [ofUrl], ?_, by rw [he, hhost]⟩
      rw [ofUrl, defaultPort]
      simp only [decide_eq_true_eq]
    case host => rwa [he]
    case files =>
      rw [ofUrl]
      cases o.tls <;> rfl

/-- The host of a service breaks no line, and its user name only if that of the options does. -/
theorem isLine_ofService {o : ClientOptions} {service : String} {e : Endpoint}
    (h : ofService service o = .ok e) (ho : ∀ user ∈ o.user, IsLine user) :
    IsLine e.host ∧ ∀ user ∈ e.user, IsLine user := by
  unfold ofService at h
  split at h
  · cases h
  · next url hp =>
    obtain rfl := Except.ok.inj h
    obtain ⟨-, -, ha, host, hhost, -⟩ := Url.authority_of_parseService hp
    constructor
    · obtain ⟨text, name, hname, he⟩ := ha.host
      have hline : IsLine name := Host.isLine_opaqueHost hname
      rw [hhost] at he
      split at he
      · cases he
      · obtain rfl := Option.some.inj he
        rwa [ofUrl, hhost, Option.getD_some]
    · by_cases hu : url.username = ""
      · simpa [ofUrl, credentials, hu] using ho
      · rcases ha.username with hempty | ⟨info, hinfo⟩
        · exact absurd hempty hu
        · have hl : IsLine url.username := hinfo ▸ Url.isLine_userinfo info
          simpa [ofUrl, credentials, hu] using hl

end Endpoint

namespace ClientOptions

variable {isFile : FileCheck} {generated : String} {o o' : ClientOptions}

theorem rotation_of_validated (h : o.validated isFile generated = .ok o') :
    ∃ r, Rotation.ofOptions o' = .ok r ∧
      List.Forall₂ (fun service e => Endpoint.ofService service o' = .ok e)
        o'.service r.endpoints := by
  have hne := (findings_eq_nil_iff.mp (findings_of_validated h)).1
  obtain ⟨es, hes⟩ : ∃ es, o'.service.mapM (Endpoint.ofService · o') = .ok es := by
    refine mapM_of_forall fun service hs => ?_
    obtain ⟨url, hp⟩ := parseService_of_validated h hs
    exact ⟨_, Endpoint.ofService_of_parse o' hp⟩
  have hall := forall₂_of_mapM hes
  have hempty : es.isEmpty = false := by
    rw [List.isEmpty_eq_false_iff, ← List.length_pos_iff, ← hall.length_eq, List.length_pos_iff]
    exact hne
  refine ⟨⟨es, 0, 0, .ofOptions o'.retry⟩, ?_, hall⟩
  rw [Rotation.ofOptions, hes]
  change (if es.isEmpty = true then _ else _) = _
  rw [hempty]
  rfl

/-- The rotation has an endpoint for every service URL of the options, in order. -/
def IsServedBy (o : ClientOptions) (r : Rotation) : Prop :=
  Rotation.ofOptions o = .ok r ∧
    List.Forall₂ (fun service e => e.Serves o service) o.service r.endpoints

theorem isServedBy_of_validated (h : o.validated isFile generated = .ok o') :
    ∃ r, o'.IsServedBy r := by
  obtain ⟨r, hr, hall⟩ := rotation_of_validated h
  exact ⟨r, hr, hall.imp fun _ _ => Endpoint.serves_ofService⟩

end ClientOptions

namespace LogEvent

variable {file : String} {s : ConsoleSettings} {e : LogEvent}

def titleText (s : ConsoleSettings) (e : LogEvent) : String :=
  let origin := if s.showTarget then s!"{target}:" else ""
  s!"{e.level.name} {origin} {e.message}"

def placeText (file : String) (s : ConsoleSettings) (e : LogEvent) : String :=
  let thread := if s.showThreadIds then " on ThreadId(1)" else ""
  s!"    at {file}:{e.line}{thread}"

/-- The line of an event that tells its message. -/
def lead (s : ConsoleSettings) (e : LogEvent) : String :=
  match s.format with
  | .compact => e.compactText s
  | .pretty => e.titleText s
  | .json => (e.document s).write

def trail (file : String) (s : ConsoleSettings) (e : LogEvent) : List String :=
  match s.format with
  | .compact | .json => []
  | .pretty => [e.placeText file s, ""]

theorem prettyText_eq :
    prettyText file s e = titleText s e ++ "\n" ++ (placeText file s e ++ "\n" ++ "") := by
  have hat : "\n    at " = "\n" ++ "    at " := rfl
  simp only [prettyText, titleText, placeText, hat, toString, String.append_assoc,
    String.append_empty]

theorem isLine_levelName (level : LogLevel) : IsLine level.name := by
  cases level <;> decide

theorem isLine_compactText (h : IsLine e.message) : IsLine (e.compactText s) := by
  have hl := isLine_levelName e.level
  unfold compactText
  cases s.showThreadIds <;> cases s.showTarget <;> simp [hl, h] <;> decide

theorem isLine_titleText (h : IsLine e.message) : IsLine (e.titleText s) := by
  have hl := isLine_levelName e.level
  unfold titleText
  cases s.showTarget <;> simp [hl, h] <;> decide

theorem isLine_placeText (h : IsLine file) : IsLine (e.placeText file s) := by
  unfold placeText
  cases s.showThreadIds <;> simp [h] <;> decide

theorem lines_eq (hfile : IsLine file) (h : IsLine e.message) :
    e.lines file s = e.lead s :: e.trail file s := by
  unfold lines lead trail
  cases s.format with
  | compact => exact split_of_isLine (isLine_compactText h)
  | pretty =>
    simp only [prettyText_eq, split_append_break, split_of_isLine (isLine_titleText h),
      split_of_isLine (isLine_placeText hfile)]
    rfl
  | json => rfl

end LogEvent

namespace Startup

def endpointEvent (numbered : Endpoint × Nat) : LogEvent :=
  info 48 s!"Endpoint {numbered.2}: {numbered.1.address} ({authentication numbered.1})"

theorem endpointEvents_eq (first : Nat) (es : List Endpoint) :
    endpointEvents first es = (es.zipIdx first).map endpointEvent := by
  induction es generalizing first with
  | nil => rfl
  | cons e es ih =>
    rw [endpointEvents, ih, List.zipIdx_cons, List.map_cons]
    rfl

/-- What is logged before the endpoints. -/
def opening (c : Config) : List LogEvent :=
  heading c.logging ++ [optionsEvent c.client, info 40 ("Client id: " ++ c.client.id.getD "")]

/-- What is logged after the endpoints. -/
def closing (c : Config) : List LogEvent :=
  [info 52 (retryText c.client.retry),
    info 62 s!"Send backpressure threshold: {c.client.sendBackpressureThreshold}",
    info 66 "Configuration OK"]

theorem events_eq_endpoints (c : Config) (es : List Endpoint) :
    events c es = opening c ++ (es.zipIdx 1).map endpointEvent ++ closing c := by
  rw [← endpointEvents_eq]
  rfl

theorem isLine_endpointEvent {e : Endpoint} (n : Nat) (hhost : IsLine e.host)
    (huser : ∀ user ∈ e.user, IsLine user) : IsLine (endpointEvent (e, n)).message := by
  have hscheme : IsLine (Endpoint.scheme e.tls) := by
    cases e.tls <;> decide
  have hauthentication : IsLine (authentication e) := by
    unfold authentication
    cases hu : e.user with
    | none => cases e.tls <;> decide
    | some user => cases e.tls <;> simp [huser user hu] <;> decide
  have htexts : IsLine "Endpoint " ∧ IsLine ": " ∧ IsLine "://" ∧ IsLine ":" ∧ IsLine " (" ∧
      IsLine ")" := by decide
  simp [endpointEvent, info, Endpoint.address, hscheme, hhost, hauthentication, htexts]

/-- What the program writes of a configuration with these endpoints, on the console alone. -/
structure Reports (env : Environment) (console : ConsoleSettings) (c : Config)
    (es : List Endpoint) (before : List String) (t : Transcript) : Prop where
  code : t.code = 0
  err : t.err = []
  /-- Where information is logged, every endpoint has an event by its number, in order. -/
  out : selects env c.logging .info → t.out = before ++ logLines env c.logging (opening c) ++
    (es.zipIdx 1).flatMap (fun e => (endpointEvent e).lines env.programFile console) ++
      logLines env c.logging (closing c)
  quiet : ¬ selects env c.logging .info → t.out = before
  /-- An event is one line, with where it comes from in the pretty format, unless the user name of
  the options breaks it. -/
  line : IsLine env.programFile → (∀ user ∈ c.client.user, IsLine user) →
    ∀ e ∈ es.zipIdx 1, (endpointEvent e).lines env.programFile console =
      (endpointEvent e).lead console :: (endpointEvent e).trail env.programFile console

variable {env : Environment} {s : LoggingSettings} {console : ConsoleSettings} {c : Config}

theorem logLines_of_selects (hconsole : s.console.filter (·.enabled) = some console)
    (hinfo : selects env s .info) {events : List LogEvent} (hlevel : ∀ e ∈ events, e.level = .info) :
    logLines env s events = events.flatMap (·.lines env.programFile console) := by
  have hall : events.filter (selects env s ·.level) = events :=
    List.filter_eq_self.mpr fun e he => by rw [hlevel e he]; exact hinfo
  simp only [logLines, hconsole, hall]

theorem logLines_of_not_selects (hinfo : ¬ selects env s .info) {events : List LogEvent}
    (hlevel : ∀ e ∈ events, LogLevel.verbosity .info ≤ e.level.verbosity) :
    logLines env s events = [] := by
  have hnone : events.filter (selects env s ·.level) = [] :=
    List.filter_eq_nil_iff.mpr fun e he h => hinfo (LogFilter.mono _ (hlevel e he) h)
  unfold logLines
  split
  · rfl
  · simp only [hnone, List.flatMap_nil]

theorem describe_of_rotation {r : Rotation} (hr : Rotation.ofOptions c.client = .ok r)
    (hconsole : c.logging.consoleEnabled) (hjournal : ¬ c.logging.journalEnabled)
    (out : List String) : describe env out c =
      ⟨0, out ++ logLines env c.logging (events c r.endpoints), []⟩ := by
  have hoff : journal env.journalFault c.logging = .off := by
    have hnone : c.logging.journal.filter (·.enabled) = none := by
      rw [Option.filter_eq_none_iff]
      intro j hj henabled
      exact hjournal (by rw [LoggingSettings.journalEnabled, hj]; exact henabled)
    rw [journal, hnone]
  have hopen : openOutputs c.logging.consoleEnabled (journal env.journalFault c.logging) =
      ([], none) := by
    rw [hoff, hconsole]
    rfl
  simp only [describe, hopen, hr, List.append_nil]

/-- Nothing that is logged about a configuration is less verbose than information. -/
theorem verbosity_events (c : Config) (es : List Endpoint) :
    ∀ e ∈ events c es, LogLevel.verbosity .info ≤ e.level.verbosity := by
  have hends : ∀ e ∈ opening c ++ closing c, LogLevel.verbosity .info ≤ e.level.verbosity := by
    simp [opening, closing, heading, info, optionsEvent, LogLevel.verbosity]
  intro e he
  rw [events_eq_endpoints, List.append_assoc, List.mem_append, List.mem_append] at he
  rcases he with he | he | he
  · exact hends e (List.mem_append_left _ he)
  · obtain ⟨numbered, -, rfl⟩ := List.mem_map.mp he
    exact Nat.le_refl 3
  · exact hends e (List.mem_append_right _ he)

theorem reports_of_rotation {r : Rotation} (hr : Rotation.ofOptions c.client = .ok r)
    (hjournal : ¬ c.logging.journalEnabled)
    (hconsole : c.logging.console.filter (·.enabled) = some console)
    (hline : ∀ e ∈ r.endpoints, ∃ service, Endpoint.ofService service c.client = .ok e)
    (before : List String) :
    Reports env console c r.endpoints before (describe env before c) := by
  rw [describe_of_rotation hr (consoleEnabled_iff.mpr ⟨console, hconsole⟩) hjournal]
  constructor
  case code => rfl
  case err => rfl
  case out =>
    intro hinfo
    have hlevel : ∀ e ∈ (r.endpoints.zipIdx 1).map endpointEvent, e.level = .info := by
      intro e he
      obtain ⟨numbered, -, rfl⟩ := List.mem_map.mp he
      rfl
    rw [events_eq_endpoints, logLines_append, logLines_append,
      logLines_of_selects hconsole hinfo hlevel, List.flatMap_map]
    simp only [List.append_assoc]
  case quiet =>
    intro hinfo
    rw [logLines_of_not_selects hinfo (verbosity_events c r.endpoints)]
    exact List.append_nil _
  case line =>
    rintro hfile huser ⟨e, n⟩ he
    obtain ⟨service, hs⟩ := hline e (List.fst_mem_of_mem_zipIdx he)
    have ⟨hhost, hname⟩ := Endpoint.isLine_ofService hs huser
    exact LogEvent.lines_eq hfile (isLine_endpointEvent n hhost hname)

theorem validated_of_load {path : String} {file : ConfigFile}
    (h : Config.load env.isFile env.generatedId path file = .ok c) :
    ∃ o : ClientOptions, o.validated env.isFile env.generatedId = .ok c.client := by
  unfold Config.load at h
  split at h
  any_goals cases h
  split at h
  · cases h
  split at h
  · cases h
  next given _ =>
  unfold Config.validated at h
  dsimp only at h
  split at h
  · split at h
    · next client hclient =>
      obtain rfl := Except.ok.inj h
      exact ⟨given.client, hclient⟩
    · cases h
  · cases h

/-- Options that are accepted can be used: every service URL has its endpoint, in order. And so the
program reports them all, whatever configuration it loads that logs to the console alone. -/
theorem accepted_usable :
    (∀ isFile generated (o o' : ClientOptions), o.validated isFile generated = .ok o' →
      ∃ r, o'.IsServedBy r) ∧
    ∀ env path source c, choosePath env = some (path, source) →
      Config.load env.isFile env.generatedId path env.configFile = .ok c →
      c.logging.consoleEnabled → ¬ c.logging.journalEnabled →
      ∃ r console, c.client.IsServedBy r ∧ c.logging.console = some console ∧
        Reports env console c r.endpoints (loadingLines path source) (run env) := by
  refine ⟨fun _ _ _ _ h => ClientOptions.isServedBy_of_validated h, ?_⟩
  intro env path source c hpath hload henabled hjournal
  obtain ⟨o, hvalidated⟩ := validated_of_load hload
  obtain ⟨r, hr, hall⟩ := ClientOptions.rotation_of_validated hvalidated
  obtain ⟨console, hconsole⟩ := consoleEnabled_iff.mp henabled
  have hrun : run env = describe env (loadingLines path source) c := run_of_load hpath hload
  refine ⟨r, console, ⟨hr, hall.imp fun _ _ => Endpoint.serves_ofService⟩,
    (Option.filter_eq_some_iff.mp hconsole).1, ?_⟩
  rw [hrun]
  refine reports_of_rotation hr hjournal hconsole (fun e he => ?_) _
  obtain ⟨service, -, hs⟩ := exists_of_forall₂_of_mem hall he
  exact ⟨service, hs⟩

/-- A configuration file with two services, one of them without a port. -/
def twoServices : ConfigFile :=
  .file (Utf8.encode ("[client]\nid = \"app\"\n" ++
    "service = [\"amqps://joe:pw@[::1]\", \"amqp://b:99\"]\n"))

def twoServicesConfig : Config where
  logging := {}
  client := { id := some "app", service := ["amqps://joe:pw@[::1]", "amqp://b:99"] }

def verbose : Environment := { plain with configFile := twoServices, logDirectives := some "info" }

theorem accepted_usable_twoServices : selects verbose twoServicesConfig.logging .info ∧
    ∃ r console, twoServicesConfig.client.IsServedBy r ∧
      twoServicesConfig.logging.console = some console ∧
      Reports verbose console twoServicesConfig r.endpoints
        (loadingLines "app.toml" s!"config from {pathVariable}") (run verbose) := by
  have hload : Config.load verbose.isFile verbose.generatedId "app.toml" verbose.configFile =
      .ok twoServicesConfig := by
    decide +kernel
  exact ⟨by decide +kernel, accepted_usable.2 verbose _ _ _ choosePath_plain hload rfl (by decide)⟩

end Startup

end PubSub
