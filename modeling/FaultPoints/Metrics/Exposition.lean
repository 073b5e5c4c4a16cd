import FaultPoints.Fault.Host

/-!
# The text exposition of the counters

Families are listed by name, each under its help and type lines, and series by the values
of their labels. A family without series is not listed.

## Main Definitions

* `Metrics.Family` — a family with its series
* `Metrics.families` — what a host exposes
* `Metrics.exposition` — the lines
-/

namespace FaultPoints.Metrics

/-- One series: its labels in order, and its value. -/
structure Series where
  /-- The names and values of the labels. -/
  labels : List (String × String)
  /-- The value. -/
  value : Nat

/-- Series under one name. -/
structure Family where
  /-- The name. -/
  name : String
  /-- What is measured. -/
  help : String
  /-- Counter or gauge. -/
  type : String
  /-- The series in order. -/
  series : List Series

/-- A label value between quotes, with quotes, backslashes and line feeds escaped. -/
def labelValue (s : String) : String :=
  String.ofList ('"' :: s.toList.flatMap (fun c =>
    if c = '\\' || c = '"' then ['\\', c] else if c = '\n' then ['\\', 'n'] else [c]) ++ ['"'])

/-- The labels of a series between braces, if it has any. -/
def labelText (labels : List (String × String)) : String :=
  if labels.isEmpty then ""
  else "\x7b" ++ ",".intercalate (labels.map fun l => l.1 ++ "=" ++ labelValue l.2) ++ "\x7d"

/-- The lines of a family. -/
def Family.lines (f : Family) : List String :=
  if f.series.isEmpty then []
  else
    ["# HELP " ++ f.name ++ " " ++ f.help, "# TYPE " ++ f.name ++ " " ++ f.type] ++
      f.series.map fun s => f.name ++ labelText s.labels ++ " " ++ Text.natural s.value

/-- What a host exposes: the gauge of armed points and the two families of counters. -/
def families (p : Fault.Host) : List Family :=
  [{ name := "active_fault_points", help := "Number of currently activated fault points",
     type := "gauge", series := [⟨[], p.gauge⟩] },
   { name := "fault_point_hits", help := "Times an activated fault point was reached",
     type := "counter",
     series := p.tally.hits.entries.map fun e => ⟨[("point", e.1)], e.2⟩ },
   { name := "faults_triggered", help := "Times a fault point fired inside its window",
     type := "counter",
     series := p.tally.triggered.entries.map fun e =>
      ⟨["kind", "point"].zip e.1, e.2⟩ }]

/-- The lines of a host. -/
def exposition (p : Fault.Host) : List String := (families p).flatMap Family.lines

end FaultPoints.Metrics
