import Workflow.Pipeline.Basic

/-!
# Summaries

One line for a parameter and one for a step, in colour if asked for.

* `Paint`               a colour or weight; `Paint.on` puts it around a text;
* `Parameter.summary`   name, kind and default value;
* `Step.summary`        name, kind and whether the arguments hold deferred values.
-/

namespace Workflow

inductive Paint where
  | bold
  | dim
  | red
  | yellow
  | cyan
deriving DecidableEq, Repr

namespace Paint

def code : Paint → String
  | bold => "1"
  | dim => "2"
  | red => "31"
  | yellow => "33"
  | cyan => "36"

/-- a text with the marks around it that start and end the paint -/
def on (paint : Paint) (colors : Bool) (text : String) : String :=
  if colors then "\x1b[" ++ paint.code ++ "m" ++ text ++ "\x1b[0m" else text

end Paint

def Parameter.summary (colors : Bool) (p : Parameter) : String :=
  let shown := match p.default? with
    | some v => " = " ++ v.compact
    | none => ""
  Paint.cyan.on colors p.name ++ " (" ++ p.kind.name ++ ")" ++ Paint.dim.on colors shown

def Step.summary (colors : Bool) (s : Step) : String :=
  let state := if s.arguments.isPlain then Paint.dim.on colors "literal"
    else Paint.yellow.on colors "deferred"
  Paint.bold.on colors s.name ++ " [" ++ s.kind.name ++ "] " ++ state

end Workflow
