import PubSub.Logging.Filter
import PubSub.Text.Split

/-! # Directives for log lines

The reader that the program runs with. A directive `target[span{field=value}]=level`
sets the greatest level of what it matches, and every part of it may be left
out. A target matches those that begin with it, and a field every event that has
it; names of spans and values of fields match spans alone. Of the directives
that match an event, the one with the longest target decides, and then the one
with the most fields.
-/

namespace PubSub

structure Directive where
  target : Option String
  /-- The fields that an event must have. -/
  fields : List String
  /-- It matches nothing but spans. -/
  onlySpans : Bool
  /-- Zero if nothing is written. -/
  verbosity : Nat
  deriving DecidableEq, Repr

namespace Directive

def greatestVerbosity : Nat := LogLevel.verbosity .trace

/-- A directive that is a level alone. -/
def ofVerbosity (verbosity : Nat) : Directive := ⟨none, [], false, verbosity⟩

/-- A verbosity by the name of its level in any case, or by its number. -/
def verbosity? (s : List Char) : Option Nat :=
  let isNamed (name : String) : Bool := name.toList.map Char.toLower = s.map Char.toLower
  let digits := match s with
    | '+' :: rest => rest
    | s => s
  if !digits.isEmpty && digits.all Char.isDigit then
    let n := digits.foldl (fun n c => n * 10 + (c.toNat - 48)) 0
    if n ≤ greatestVerbosity then some n else none
  else if isNamed "OFF" then some 0
  else (LogLevel.all.find? fun l => isNamed l.name).map LogLevel.verbosity

/-- The verbosity after an equals sign; everything if it is left out. -/
def levelAfter? (s : List Char) : Option Nat :=
  if s.isEmpty then some greatestVerbosity else verbosity? s

/-- A level, or else a target of which everything is written. -/
def levelOrTarget (s : List Char) : Directive :=
  match verbosity? s with
  | some verbosity => ofVerbosity verbosity
  | none => ⟨some (String.ofList s), [], false, greatestVerbosity⟩

def startsDirective (c : Char) : Bool :=
  c = '[' || c = '-' || c = ':' || c = '_' || c.isAlphanum || 0x7F < c.toNat

/-- What stands in square brackets, after the first of them. -/
structure Bracket where
  span : List Char
  /-- With its value, if it has one. -/
  field : Option (List Char)
  rest : List Char

def bracket? (s : List Char) : Option Bracket :=
  match s.span (fun c => c ≠ ']' && c ≠ '\x7b') with
  | (span, ']' :: rest) => some ⟨span, none, rest⟩
  | (span, '\x7b' :: fields) =>
    match fields.span (· ≠ '\x7d') with
    | ([], _) => none
    | (field, '\x7d' :: ']' :: rest) => some ⟨span, some field, rest⟩
    | _ => none
  | _ => none

/-- Without a field there is a name of a span, even if it is empty. -/
def ofBracket (target : Option String) (b : Bracket) (verbosity : Nat) : Directive :=
  match b.field with
  | none => ⟨target, [], true, verbosity⟩
  | some field =>
    ⟨target, [String.ofList (field.takeWhile (· ≠ '='))], !b.span.isEmpty || field.contains '=',
      verbosity⟩

def parse? (s : String) : Option Directive :=
  match s.toList.dropWhile Char.isWhitespace with
  | [] => none
  | first :: _ =>
    if !startsDirective first then none
    else
      match s.toList.span (fun c => c ≠ '=' && c ≠ '[') with
      | (_, []) => some (levelOrTarget s.toList)
      | (target, mark :: rest) =>
        if s.toList.head? ≠ some first then none
        else
          let target := if target.isEmpty then none else some (String.ofList target)
          if mark = '=' then (levelAfter? rest).map fun v => ⟨target, [], false, v⟩
          else
            (bracket? rest).bind fun b =>
              match b.rest with
              | [] => some (ofBracket target b greatestVerbosity)
              | '=' :: level => (levelAfter? level).map (ofBracket target b)
              | _ => none

def isAbout (d : Directive) (target : String) (fields : List String) : Bool :=
  !d.onlySpans && d.target.all (fun t => t.toList.isPrefixOf target.toList) &&
    d.fields.all fields.contains

/-- How long the target is; a directive without one comes last. -/
def targetSize (d : Directive) : Nat :=
  match d.target with
  | none => 0
  | some t => t.utf8ByteSize + 1

/-- A directive goes before those that are less specific. -/
def isLessSpecific (d e : Directive) : Bool :=
  d.targetSize < e.targetSize ||
    (d.targetSize = e.targetSize && d.fields.length ≤ e.fields.length)

/-- The directive that decides about an event; of two that are alike the later. -/
def decisive? (ds : List Directive) (target : String) (fields : List String) : Option Directive :=
  (ds.filter (·.isAbout target fields)).foldl
    (fun best d =>
      match best with
      | none => some d
      | some b => if b.isLessSpecific d then some d else some b)
    none

def enables (ds : List Directive) (target : String) (fields : List String) (level : LogLevel) :
    Bool :=
  (decisive? ds target fields).any fun d => level.verbosity ≤ d.verbosity

theorem enables_mono {ds : List Directive} {target : String} {fields : List String}
    {level level' : LogLevel} (hle : level.verbosity ≤ level'.verbosity)
    (h : enables ds target fields level') : enables ds target fields level := by
  unfold enables at h ⊢
  cases hd : decisive? ds target fields with
  | none => simp [hd] at h
  | some d =>
    simp only [hd, Option.any_some, decide_eq_true_eq] at h ⊢
    exact Nat.le_trans hle h

/-- Without directives errors alone are written. -/
def standard : List Directive := [ofVerbosity (LogLevel.verbosity .error)]

def filter (ds : List Directive) : LogFilter where
  enables := enables (if ds.isEmpty then standard else ds)
  mono := enables_mono

end Directive

/-- Directives stand between commas. -/
def DirectiveReader.standard : DirectiveReader where
  readAll? s := ((pieces s).mapM Directive.parse?).map Directive.filter
  readSome s := Directive.filter ((pieces s).filterMap Directive.parse?)
where
  pieces (s : String) : List String := (split ',' s).filter (!·.isEmpty)

end PubSub
