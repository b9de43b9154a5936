import DeletionGuard.Log.Basic
import DeletionGuard.Log.Pattern
import DeletionGuard.Text.Blank

/-!
# Log filters

A filter says up to which level the entries of a target are shown, and which pattern their message
must hold. It is described by directives between commas, followed by a slash and the pattern; a
directive is a level, a target, or both with an equals sign between them. What cannot be understood
is left out with a warning.
-/

namespace DeletionGuard

/-- The greatest rank that is shown of the entries whose target starts with `target`. -/
structure LogDirective where
  target : Option String
  rank : Nat
  deriving DecidableEq, Repr

structure LogFilter where
  directives : List LogDirective
  pattern : Option Pattern := none

namespace LogFilter

/-- The rank that a word names in any ASCII case. -/
def rank? (word : String) : Option Nat :=
  ["off", "error", "warn", "info", "debug", "trace"].idxOf?
    (String.ofList (word.toList.map Char.toLower))

def maxRank : Nat := Level.trace.rank

/-- The directive that a part of a description stands for, or what is wrong with it. -/
def readDirective (part : String) : Except String LogDirective :=
  match part.splitOn "=" with
  | [word] =>
    match rank? word with
    | some rank => .ok ⟨none, rank⟩
    | none => .ok ⟨some word, maxRank⟩
  | [target, word] =>
    let level := Text.trim word
    if level.isEmpty then .ok ⟨some target, maxRank⟩
    else
      match rank? level with
      | some rank => .ok ⟨some target, rank⟩
      | none => .error ("invalid logging spec '" ++ level ++ "'")
  | _ => .error ("invalid logging spec '" ++ part ++ "'")

/-- Puts a directive in the place of the one for the same target, or behind all others. -/
def insert (ds : List LogDirective) (d : LogDirective) : List LogDirective :=
  if ds.any (·.target = d.target) then ds.map fun e => if e.target = d.target then d else e
  else ds ++ [d]

/-- The directives between commas, put into a list one by one, and the warnings about the others. -/
def readDirectives (ds : List LogDirective) (parts : List String) : List LogDirective × List String :=
  parts.foldl (fun (ds, warnings) part =>
    let part := Text.trim part
    if part.isEmpty then (ds, warnings)
    else
      match readDirective part with
      | .ok d => (insert ds d, warnings)
      | .error warning => (ds, warnings ++ [warning])) (ds, [])

/-- The filter that a description makes of one for a single rank, and warnings. -/
def ofDescription (rank : Nat) (description : String) : LogFilter × List String :=
  let plain : List LogDirective := [⟨none, rank⟩]
  match description.splitOn "/" with
  | [] => (⟨plain, none⟩, [])
  | [parts] =>
    let (ds, warnings) := readDirectives plain (parts.splitOn ",")
    (⟨ds, none⟩, warnings)
  | [parts, source] =>
    let (ds, warnings) := readDirectives plain (parts.splitOn ",")
    match Pattern.ofText source with
    | .ok p => (⟨ds, some p⟩, warnings)
    | .error fault =>
      (⟨ds, none⟩, warnings ++ ["invalid regex filter - " ++ fault.message source])
  | _ => (⟨plain, none⟩, ["invalid logging spec '" ++ description ++ "' (too many '/'s)"])

def warningLine (warning : String) : String :=
  "warning: " ++ warning ++ ", ignoring it\n"

/-- The length of the target that a directive names. -/
def width (d : LogDirective) : Nat :=
  (d.target.map String.utf8ByteSize).getD 0

/-- Of the directives for a target the one that names it at the greatest length counts. -/
def rankOf (f : LogFilter) (target : String) : Nat :=
  let fitting := f.directives.filter fun d => d.target.all fun t => t.toList.isPrefixOf target.toList
  let widest := fitting.foldl (fun best d =>
    match best with
    | some b => if width d < width b then best else some d
    | none => some d) (none : Option LogDirective)
  (widest.map (·.rank)).getD 0

def shows (f : LogFilter) (e : LogEntry) : Bool :=
  e.level.rank ≤ f.rankOf e.target && f.pattern.all (·.isIn e.message)

end LogFilter

end DeletionGuard
