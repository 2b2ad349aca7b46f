/-!
Lines of graded severity. A `Log` keeps the lines that are at most as verbose as its
threshold and forgets the others, so what it holds at one threshold is what it would hold
at a more verbose one with the finer lines taken out.
-/

namespace Ahci

/-- How grave a line is, the gravest first. -/
inductive Severity where
  | fatal
  | error
  | warn
  | info
  | debug
  | trace
deriving DecidableEq, Repr, Inhabited

namespace Severity

/-- Position among the severities; a graver line has a smaller rank. -/
def rank : Severity → Nat
  | fatal => 0
  | error => 1
  | warn => 2
  | info => 3
  | debug => 4
  | trace => 5

def label : Severity → String
  | fatal => "FATAL"
  | error => "ERROR"
  | warn => "WARN"
  | info => "INFO"
  | debug => "DEBUG"
  | trace => "TRACE"

/-- The mark in a column of five characters. -/
def column (severity : Severity) : String :=
  severity.label ++ String.ofList (List.replicate (5 - severity.label.length) ' ')

/-- Whether a line of this severity passes a threshold. -/
def passes (severity threshold : Severity) : Bool :=
  severity.rank ≤ threshold.rank

end Severity

structure LogLine where
  severity : Severity
  text : String
deriving DecidableEq, Repr

def LogLine.render (line : LogLine) : String :=
  line.severity.label ++ ": " ++ line.text

/-- The lines that passed the threshold, newest first. -/
structure Log where
  threshold : Severity := .info
  lines : List LogLine := []
deriving Inhabited

namespace Log

/-- Keeps a line if it passes the threshold. -/
def record (log : Log) (severity : Severity) (text : String) : Log :=
  if severity.passes log.threshold then
    { log with lines := ⟨severity, text⟩ :: log.lines }
  else log

def rendered (log : Log) : List String :=
  (log.lines.map LogLine.render).reverse

@[simp] theorem threshold_record (log : Log) (severity : Severity) (text : String) :
    (log.record severity text).threshold = log.threshold := by
  unfold record; split <;> rfl

/-- A record extends the kept lines by those of the new line that pass. -/
theorem lines_record (log : Log) (severity : Severity) (text : String) :
    (log.record severity text).lines =
      [⟨severity, text⟩].filter (·.severity.passes log.threshold) ++ log.lines := by
  unfold record
  split <;> simp_all

end Log

end Ahci
