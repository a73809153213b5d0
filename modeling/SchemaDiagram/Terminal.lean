/-!
# Terminal output

What a run tells is a sequence of notices. Most of them go to the standard output, each with an icon
of its own; errors and what is told on request only go to the standard error. Colours are used on a
terminal or where they are forced, and never where they are turned off on the command line.
-/

namespace SchemaDiagram.Terminal

/-- The colours of a terminal, by the code that sets them. -/
inductive Colour where
  | red
  | green
  | yellow
  | blue
  | magenta
  | cyan
  | white
  | brightBlack
  | brightBlue
  | brightCyan
  deriving DecidableEq, Repr

/-- The code that sets a colour. -/
def Colour.code : Colour → String
  | red => "31"
  | green => "32"
  | yellow => "33"
  | blue => "34"
  | magenta => "35"
  | cyan => "36"
  | white => "37"
  | brightBlack => "90"
  | brightBlue => "94"
  | brightCyan => "96"

/-- The code that ends all colours. -/
def reset : String := "\x1b[0m"

/-- A text in a colour, which is set again wherever the text itself ends all colours. -/
def paint (colour : Colour) (bold : Bool) (text : String) : String :=
  let start := "\x1b[" ++ (if bold then "1;" else "") ++ colour.code ++ "m"
  start ++ String.intercalate (reset ++ start) (text.splitOn reset) ++ reset

/-- What the environment says about colours. -/
structure Environment where
  /-- Whether the standard output is a terminal. -/
  isTerminal : Bool := false
  /-- The variable that turns colours off on a terminal if it is `0`. -/
  colour : Option String := none
  /-- The variable that forces colours unless it is `0`. -/
  force : Option String := none
  /-- The variable that turns colours off if it is set. -/
  noColour : Option String := none
  deriving DecidableEq, Repr

/-- Whether texts are coloured. -/
def Environment.wantsColour (env : Environment) : Bool :=
  if env.force.any (· != "0") then true
  else if env.noColour.isSome then false
  else env.isTerminal && env.colour.all (· != "0")

/-- Something that a run tells. -/
inductive Notice where
  /-- The title of what is being done. -/
  | heading (text : String)
  /-- Something was done. -/
  | success (text : String)
  /-- Something that is good to know. -/
  | info (text : String)
  /-- Something that may not be as intended. -/
  | warning (text : String)
  /-- Something that is told on request only. -/
  | detail (text : String)
  /-- Data that was asked for. -/
  | data (text : String)
  /-- The text that is the whole output. -/
  | document (text : String)
  /-- The run has failed. -/
  | error (text : String)
  deriving DecidableEq, Repr

/-- How notices are shown. -/
structure Manner where
  /-- Whether only errors are shown. -/
  quiet : Bool := false
  /-- Whether details are shown. -/
  verbose : Bool := false
  /-- Whether colours are turned off on the command line. -/
  plain : Bool := false
  /-- Whether the environment wants colours. -/
  colour : Bool := false
  deriving DecidableEq, Repr

namespace Manner

/-- A text in a colour, as far as there are colours. -/
def painted (m : Manner) (colour : Colour) (text : String) : String :=
  if m.colour && !m.plain then paint colour false text else text

/-- A line with an icon. -/
def tagged (m : Manner) (icon : String) (colour : Colour) (text : String) : String :=
  m.painted colour icon ++ " " ++ m.painted colour text ++ "\n"

/-- A title after an empty line; without colours on the command line's demand it is underlined. -/
def title (m : Manner) (text : String) : String :=
  if m.plain then
    "\n" ++ text ++ "\n" ++ String.ofList (List.replicate text.utf8ByteSize '=') ++ "\n"
  else if m.colour then "\n" ++ paint .brightBlue true text ++ "\n"
  else "\n" ++ text ++ "\n"

/-- What a notice adds to the standard output. -/
def output (m : Manner) : Notice → String
  | .heading text => if m.quiet then "" else m.title text
  | .success text => if m.quiet then "" else m.tagged "✓" .green text
  | .info text => if m.quiet then "" else m.tagged "ℹ" .blue text
  | .warning text => if m.quiet then "" else m.tagged "⚠" .yellow text
  | .data text => if m.quiet then "" else text ++ "\n"
  | .document text => text
  | .detail _ | .error _ => ""

/-- What a notice adds to the standard error. -/
def errorOutput (m : Manner) : Notice → String
  | .detail text => if m.verbose && !m.quiet then m.tagged "→" .brightBlack text else ""
  | .error text => m.tagged "✗" .red text
  | _ => ""

end Manner

end SchemaDiagram.Terminal
