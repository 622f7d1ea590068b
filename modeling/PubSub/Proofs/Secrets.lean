import PubSub.Proofs.Escapes
import PubSub.Startup

/-! # Who learns the password

Two runs of the program whose configurations differ in the password of the
client alone end alike, and write the same lines but for those of one event:
the options of the client, which are logged for debugging as they are. Where
that event is on the console its lines tell the password; where it is not, no
line depends on it.
-/

namespace PubSub

section Lines

namespace LogEvent

variable {level : LogLevel} {line : Nat} {file : String} {s : ConsoleSettings} {m m' : String}

theorem compactText_inj (h : compactText s ⟨level, m, line⟩ = compactText s ⟨level, m', line⟩) :
    m = m' := (String.append_right_inj _).mp h

theorem prettyText_inj
    (h : prettyText file s ⟨level, m, line⟩ = prettyText file s ⟨level, m', line⟩) : m = m' := by
  simp only [prettyText, String.append_left_inj] at h
  exact (String.append_right_inj _).mp h

/-- The message is the first member of the document, in the order of keys. -/
theorem document_eq : document s ⟨level, m, line⟩ =
    .object (("fields", .object [("message", .text m)]) :: ("level", .text level.name) ::
      ((if s.showTarget then [("target", .text target)] else []) ++
        (if s.showThreadIds then [("threadId", .text "ThreadId(1)")] else []))) := by
  rw [document]
  cases s.showTarget <;> cases s.showThreadIds <;> rfl

theorem document_inj
    (h : (document s ⟨level, m, line⟩).write = (document s ⟨level, m', line⟩).write) :
    m = m' := by
  simp only [document_eq, Json.write, Json.writeMembers, String.append_assoc,
    String.append_right_inj] at h
  exact (Json.quote_append_inj h).1

/-- In every format the lines of an event tell its message. -/
theorem lines_inj (h : lines file s ⟨level, m, line⟩ = lines file s ⟨level, m', line⟩) :
    m = m' := by
  unfold lines at h
  split at h
  · exact compactText_inj (split_inj h)
  · exact prettyText_inj (split_inj h)
  · exact document_inj (List.singleton_inj.mp h)

end LogEvent

namespace Inspected

variable {depth : Nat} {name : String} {x y : Inspected}

theorem block_option_text_inj {s t : Option String}
    (h : block depth (option text s) = block depth (option text t)) : s = t := by
  have hfirst := congrArg (·.toList.head?) h
  cases s with
  | none =>
    cases t with
    | none => rfl
    | some t => simp [option, block] at hfirst
  | some s =>
    cases t with
    | none => simp [option, block] at hfirst
    | some t =>
      simp only [option, block, blockItems, String.append_assoc, String.append_right_inj,
        String.append_left_inj, text] at h
      exact congrArg some (Quoted.text_inj h)

theorem blockFields_inj (before after : List (String × Inspected))
    (h : blockFields depth (before ++ (name, x) :: after) =
      blockFields depth (before ++ (name, y) :: after)) :
    block (depth + 1) x = block (depth + 1) y := by
  induction before with
  | nil =>
    simp only [List.nil_append, blockFields, String.append_left_inj] at h
    exact (String.append_right_inj _).mp h
  | cons field before ih =>
    obtain ⟨name', z⟩ := field
    simp only [List.cons_append, blockFields] at h
    exact ih ((String.append_right_inj _).mp h)

theorem block_record_inj {title : String} (before after : List (String × Inspected))
    (h : block depth (.record title (before ++ (name, x) :: after)) =
      block depth (.record title (before ++ (name, y) :: after))) :
    block (depth + 1) x = block (depth + 1) y := by
  simp only [block, String.append_left_inj] at h
  exact blockFields_inj before after ((String.append_right_inj _).mp h)

end Inspected

end Lines

def Endpoint.withoutPassword (e : Endpoint) : Endpoint := { e with password := none }

def ClientOptions.withoutPassword (o : ClientOptions) : ClientOptions := { o with password := none }

theorem ClientOptions.eq_of_withoutPassword {o o' : ClientOptions}
    (hsame : o.withoutPassword = o'.withoutPassword) (h : o.password = o'.password) : o = o' := by
  obtain ⟨id, service, user, password, tls, retry, threshold⟩ := o
  obtain ⟨rfl, rfl, rfl, -, rfl, rfl, rfl⟩ := ClientOptions.mk.inj hsame
  exact congrArg (fun password => { o' with password := password }) h

def Config.withoutPassword (c : Config) : Config := { c with client := c.client.withoutPassword }

section Endpoints

theorem Endpoint.ofService_withoutPassword (service : String) (o : ClientOptions) :
    (ofService service o.withoutPassword).map withoutPassword =
      (ofService service o).map withoutPassword := by
  unfold ofService
  split
  · rfl
  · next url _ =>
    by_cases hu : url.username = "" <;>
      simp [Except.map, ofUrl, credentials, withoutPassword, ClientOptions.withoutPassword, hu]

theorem map_mapM {ε α β γ : Type} (f : α → Except ε β) (p : β → γ) (as : List α) :
    (as.mapM f).map (·.map p) = as.mapM fun a => (f a).map p := by
  induction as with
  | nil => rfl
  | cons a as ih =>
    simp only [List.mapM_cons, ← ih]
    cases f a with
    | error e => rfl
    | ok b => cases as.mapM f <;> rfl

/-- The endpoints that options give, but for their passwords. -/
def Rotation.shown (o : ClientOptions) : Except ClientError (List Endpoint) :=
  (ofOptions o).map (·.endpoints.map Endpoint.withoutPassword)

theorem Rotation.shown_eq (o : ClientOptions) : shown o =
    ((o.service.mapM fun s => (Endpoint.ofService s o).map Endpoint.withoutPassword) >>= fun es =>
      if es.isEmpty then .error (.config "no service URLs configured") else pure es) := by
  unfold shown ofOptions
  rw [← map_mapM]
  cases o.service.mapM (Endpoint.ofService · o) with
  | error e => rfl
  | ok es => cases es <;> rfl

theorem Rotation.shown_withoutPassword (o : ClientOptions) :
    shown o.withoutPassword = shown o := by
  simp only [shown_eq, Endpoint.ofService_withoutPassword]
  rfl

end Endpoints

namespace Startup

def optionsEvent (o : ClientOptions) : LogEvent := ⟨.debug, o.inspect.block 0, 33⟩

theorem optionsEvent_inj {o o' : ClientOptions} {file : String} {s : ConsoleSettings}
    (hsame : o.withoutPassword = o'.withoutPassword)
    (h : (optionsEvent o).lines file s = (optionsEvent o').lines file s) :
    o.password = o'.password := by
  obtain ⟨id, service, user, password, tls, retry, threshold⟩ := o
  obtain ⟨id', service', user', password', tls', retry', threshold'⟩ := o'
  obtain ⟨rfl, rfl, rfl, -, rfl, rfl, rfl⟩ := ClientOptions.mk.inj hsame
  -- The password stands between three fields and three more.
  exact Inspected.block_option_text_inj
    (Inspected.block_record_inj
      [("id", .option .text id), ("service", .list (service.map .text)),
        ("user", .option .text user)] _ (LogEvent.lines_inj h))

theorem endpointEvents_withoutPassword (first : Nat) (es : List Endpoint) :
    endpointEvents first (es.map Endpoint.withoutPassword) = endpointEvents first es := by
  induction es generalizing first with
  | nil => rfl
  | cons e es ih =>
    rw [List.map_cons, endpointEvents, endpointEvents, ih]
    rfl

/-- What is logged before the options of the client. -/
def heading (s : LoggingSettings) : List LogEvent :=
  [info 31 "skylark version 0.1.0", info 32 s!"Log level: {s.directives}"]

/-- What is logged after the options of the client. -/
def summary (c : Config) (es : List Endpoint) : List LogEvent := (events c es).drop 3

theorem events_eq (c : Config) (es : List Endpoint) :
    events c es = heading c.logging ++ optionsEvent c.client :: summary c es := rfl

theorem summary_withoutPassword (c : Config) (es : List Endpoint) :
    summary c.withoutPassword (es.map Endpoint.withoutPassword) = summary c es := by
  simp only [summary, events, List.cons_append, List.nil_append, List.drop_succ_cons,
    List.drop_zero, endpointEvents_withoutPassword]
  rfl

variable {env : Environment}

theorem logLines_append (s : LoggingSettings) (events events' : List LogEvent) :
    logLines env s (events ++ events') = logLines env s events ++ logLines env s events' := by
  unfold logLines
  split
  · rfl
  · simp only [List.filter_append, List.flatMap_append]

/-- The outputs open, and events for debugging are among those on the console. -/
def showsOptions (env : Environment) (s : LoggingSettings) : Bool :=
  (openOutputs s.consoleEnabled (journal env.journalFault s)).2.isNone && s.consoleEnabled &&
    selects env s .debug

def optionsLines (env : Environment) (c : Config) : List String :=
  if showsOptions env c.logging then logLines env c.logging [optionsEvent c.client] else []

theorem consoleEnabled_iff {s : LoggingSettings} :
    s.consoleEnabled ↔ ∃ console, s.console.filter (·.enabled) = some console := by
  cases h : s.console <;> simp [LoggingSettings.consoleEnabled, h, Option.filter_eq_some_iff]

theorem logLines_of_showsOptions {s : LoggingSettings} (h : showsOptions env s) :
    ∃ console, ∀ o, logLines env s [optionsEvent o] =
      (optionsEvent o).lines env.programFile console := by
  rw [showsOptions, Bool.and_eq_true, Bool.and_eq_true, consoleEnabled_iff] at h
  obtain ⟨⟨-, console, hconsole⟩, hdebug⟩ := h
  refine ⟨console, fun o => ?_⟩
  simp only [logLines, hconsole, optionsEvent, List.filter_cons, hdebug, if_true, List.filter_nil,
    List.flatMap_cons, List.flatMap_nil, List.append_nil]

theorem logLines_optionsEvent {c : Config}
    (hopen : (openOutputs c.logging.consoleEnabled (journal env.journalFault c.logging)).2 = none) :
    logLines env c.logging [optionsEvent c.client] = optionsLines env c := by
  unfold optionsLines
  split
  · rfl
  · next hno =>
    unfold logLines
    cases hconsole : c.logging.console.filter (·.enabled) with
    | none => rfl
    | some console =>
      have henabled := consoleEnabled_iff.mpr ⟨console, hconsole⟩
      rw [showsOptions, hopen, henabled, Option.isNone_none, Bool.true_and, Bool.true_and,
        Bool.not_eq_true] at hno
      simp only [List.filter_cons, List.filter_nil, optionsEvent, hno, Bool.false_eq_true, if_false,
        List.flatMap_nil]

variable {c c' : Config}

theorem optionsLines_eq_iff (hsame : c.withoutPassword = c'.withoutPassword) :
    optionsLines env c = optionsLines env c' ↔
      (c.client.password = c'.client.password ∨ ¬ showsOptions env c.logging) := by
  obtain ⟨hlog, hclient⟩ := Config.mk.inj hsame
  unfold optionsLines
  rw [← hlog]
  cases hshow : showsOptions env c.logging with
  | false => simp only [Bool.false_eq_true, if_false, not_false_eq_true, or_true]
  | true =>
    simp only [if_true, not_true_eq_false, or_false]
    obtain ⟨console, hlines⟩ := logLines_of_showsOptions hshow
    rw [hlines, hlines]
    constructor
    · exact optionsEvent_inj hclient
    · intro hpassword
      rw [ClientOptions.eq_of_withoutPassword hclient hpassword]

theorem logLines_around (before after : List LogEvent)
    (hopen : (openOutputs c.logging.consoleEnabled (journal env.journalFault c.logging)).2 = none) :
    logLines env c.logging (before ++ optionsEvent c.client :: after) =
      logLines env c.logging before ++ optionsLines env c ++ logLines env c.logging after := by
  rw [List.append_cons, logLines_append, logLines_append, logLines_optionsEvent hopen]

variable {out lines : List String}

theorem describe_of_closed {fault : LoggingError}
    (hopen : openOutputs c.logging.consoleEnabled (journal env.journalFault c.logging) =
      (lines, some fault)) :
    describe env out c = ⟨1, out ++ lines ++ optionsLines env c ++ [],
      [errorLine s!"Failed to init Log Manager: {fault.message}"]⟩ := by
  have hno : optionsLines env c = [] := by simp [optionsLines, showsOptions, hopen]
  simp only [describe, hopen, hno, List.append_nil, fail]

theorem describe_of_error {cause : ClientError} (hr : Rotation.ofOptions c.client = .error cause)
    (hopen : openOutputs c.logging.consoleEnabled (journal env.journalFault c.logging) =
      (lines, none)) :
    describe env out c = ⟨1, out ++ lines ++ logLines env c.logging (heading c.logging) ++
      optionsLines env c ++ logLines env c.logging
        [⟨.error, s!"Invalid client configuration: {cause.message}", 36⟩], []⟩ := by
  have hlines := logLines_around (heading c.logging)
    [⟨.error, s!"Invalid client configuration: {cause.message}", 36⟩] (congrArg Prod.snd hopen)
  simp only [describe, hopen, hr, List.append_assoc] at hlines ⊢
  exact congrArg (fun logged => Transcript.mk 1 (out ++ (lines ++ logged)) []) hlines

theorem describe_of_ok {r : Rotation} (hr : Rotation.ofOptions c.client = .ok r)
    (hopen : openOutputs c.logging.consoleEnabled (journal env.journalFault c.logging) =
      (lines, none)) :
    describe env out c = ⟨0, out ++ lines ++ logLines env c.logging (heading c.logging) ++
      optionsLines env c ++ logLines env c.logging (summary c r.endpoints), []⟩ := by
  have hlines := logLines_around (heading c.logging) (summary c r.endpoints)
    (congrArg Prod.snd hopen)
  simp only [describe, hopen, hr, events_eq, hlines, List.append_assoc]

/-- Two configurations that differ in the password alone are reported alike but for the lines that
show the options. -/
theorem describe_alike (env : Environment) (hsame : c.withoutPassword = c'.withoutPassword)
    (out : List String) :
    ∃ code before after err,
      describe env out c = ⟨code, before ++ optionsLines env c ++ after, err⟩ ∧
        describe env out c' = ⟨code, before ++ optionsLines env c' ++ after, err⟩ := by
  obtain ⟨hlog, hclient⟩ := Config.mk.inj hsame
  have hshown : Rotation.shown c.client = Rotation.shown c'.client := by
    rw [← Rotation.shown_withoutPassword, hclient, Rotation.shown_withoutPassword]
  unfold Rotation.shown at hshown
  cases hopen : openOutputs c.logging.consoleEnabled (journal env.journalFault c.logging) with
  | mk lines fault =>
    have hopen' := hlog ▸ hopen
    cases fault with
    | some fault => exact ⟨_, _, _, _, describe_of_closed hopen, describe_of_closed hopen'⟩
    | none =>
      cases hr : Rotation.ofOptions c.client <;> cases hr' : Rotation.ofOptions c'.client <;>
        rw [hr, hr'] at hshown
      case error.ok => cases hshown
      case ok.error => cases hshown
      case error.error cause cause' =>
        obtain rfl : cause = cause' := Except.error.inj hshown
        exact ⟨_, _, _, _, describe_of_error hr hopen, hlog ▸ describe_of_error hr' hopen'⟩
      case ok.ok r r' =>
        have hes : r.endpoints.map Endpoint.withoutPassword =
            r'.endpoints.map Endpoint.withoutPassword := Except.ok.inj hshown
        have hsummary : summary c r.endpoints = summary c' r'.endpoints := by
          rw [← summary_withoutPassword, hsame, hes, summary_withoutPassword]
        refine ⟨_, _, _, _, describe_of_ok hr hopen, ?_⟩
        rw [hsummary, hlog]
        exact describe_of_ok hr' hopen'

theorem describe_eq_iff (hsame : c.withoutPassword = c'.withoutPassword) :
    describe env out c = describe env out c' ↔
      (c.client.password = c'.client.password ∨ ¬ showsOptions env c.logging) := by
  obtain ⟨code, before, after, err, h, h'⟩ := describe_alike env hsame out
  rw [h, h', ← optionsLines_eq_iff hsame, Transcript.mk.injEq, List.append_left_inj,
    List.append_right_inj]
  simp only [true_and, and_true]

def loadingLines (path source : String) : List String :=
  [infoLine s!"Using {source}: {path}", infoLine s!"Loading configuration from: {path}",
    infoLine s!"Successfully loaded config from: {path}"]

theorem run_of_load {path source : String} {file : ConfigFile}
    (hpath : choosePath env = some (path, source))
    (hload : Config.load env.isFile env.generatedId path file = .ok c) :
    run { env with configFile := file } = describe env (loadingLines path source) c := by
  have hpath' : choosePath { env with configFile := file } = some (path, source) := hpath
  simp only [run, hpath', hload]
  rfl

/-- What two runs on configurations tell of the password, if there is no other difference. -/
structure TellsInOptions (env : Environment) (c c' : Config) (t t' : Transcript) : Prop where
  code : t.code = t'.code
  err : t.err = t'.err
  /-- The lines differ at most where the options are shown. -/
  out : ∃ before after, t.out = before ++ optionsLines env c ++ after ∧
    t'.out = before ++ optionsLines env c' ++ after
  /-- There is no difference if the passwords are the same, or the options are not shown. -/
  told : t = t' ↔ (c.client.password = c'.client.password ∨ ¬ showsOptions env c.logging)

/-- Files that load as configurations with different passwords, and no other difference, can be told
apart only by the options of the client in lines for debugging, and by these always. -/
theorem password_told {path source : String} {file file' : ConfigFile}
    (hpath : choosePath env = some (path, source))
    (hload : Config.load env.isFile env.generatedId path file = .ok c)
    (hload' : Config.load env.isFile env.generatedId path file' = .ok c')
    (hsame : c.withoutPassword = c'.withoutPassword) :
    TellsInOptions env c c' (run { env with configFile := file })
      (run { env with configFile := file' }) := by
  rw [run_of_load hpath hload, run_of_load hpath hload']
  obtain ⟨code, before, after, err, h, h'⟩ :=
    describe_alike env hsame (loadingLines path source)
  constructor
  case code => rw [h, h']
  case err => rw [h, h']
  case out =>
    rw [h, h']
    exact ⟨before, after, rfl, rfl⟩
  case told => exact describe_eq_iff hsame

/-- A configuration file with a log level and credentials. -/
def fileWith (level password : String) : ConfigFile :=
  .file (Utf8.encode ("[logger]\nlevel = \"" ++ level ++ "\"\n" ++
    "[client]\nid = \"app\"\nuser = \"joe\"\npassword = \"" ++ password ++ "\"\n"))

def configWith (level password : String) : Config where
  logging := { level := level }
  client := { id := some "app", user := some "joe", password := some password }

/-- A configuration file is named, and there is nothing else. -/
def plain : Environment where
  configPath := some "app.toml"
  hasDefault := false
  configFile := .missing
  isFile := fun _ => false
  logDirectives := none
  journalFault := none
  generatedId := "x"
  programFile := "main"

def Loads (level password : String) : Prop :=
  Config.load plain.isFile plain.generatedId "app.toml" (fileWith level password) =
    .ok (configWith level password)

theorem choosePath_plain :
    choosePath plain = some ("app.toml", s!"config from {pathVariable}") := rfl

theorem loads_one : Loads "debug" "one" := by
  unfold Loads
  decide +kernel

theorem loads_two : Loads "debug" "two" := by
  unfold Loads
  decide +kernel

theorem password_told_twoFiles :
    TellsInOptions plain (configWith "debug" "one") (configWith "debug" "two")
      (run { plain with configFile := fileWith "debug" "one" })
      (run { plain with configFile := fileWith "debug" "two" }) :=
  password_told choosePath_plain loads_one loads_two rfl

theorem showsOptions_debug : showsOptions plain { level := "debug" } := by
  decide +kernel

/-- Two files that load, and differ in the password alone, are told apart at the level debug. -/
theorem password_shown :
    Loads "debug" "one" ∧ Loads "debug" "two" ∧
      (configWith "debug" "one").withoutPassword = (configWith "debug" "two").withoutPassword ∧
      run { plain with configFile := fileWith "debug" "one" } ≠
        run { plain with configFile := fileWith "debug" "two" } := by
  have hsame : (configWith "debug" "one").withoutPassword =
      (configWith "debug" "two").withoutPassword := rfl
  refine ⟨loads_one, loads_two, hsame, ?_⟩
  rw [run_of_load choosePath_plain loads_one, run_of_load choosePath_plain loads_two, Ne,
    describe_eq_iff hsame]
  rintro (h | h)
  · exact absurd h (by decide)
  · exact h showsOptions_debug

end Startup

end PubSub
