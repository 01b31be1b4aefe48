import ClassCheck.Diagnostic.Basic
import ClassCheck.Diagnostic.Ink
import ClassCheck.Text.Blank

/-! # Diagnostics as text -/

namespace ClassCheck

open Ink (paint)

def Level.name : Level → String
  | .error => "error"
  | .note => "note"

def Level.ink : Level → Ink
  | .error => ⟨.red, true⟩
  | .note => ⟨.cyan, true⟩

/-- The ink of the carets below a line. -/
def Level.underlineInk : Level → Ink
  | .error => ⟨.red, true⟩
  | .note => ⟨.cyan, false⟩

def Level.render (color : Bool) (level : Level) : String :=
  paint color level.ink level.name

namespace Diagnostic

/-- Every line ends in a line feed, the last one too. -/
def unlines (lines : List String) : String := String.join (lines.map (· ++ "\n"))

/-- Carets below the marked bytes and the label's message after them. There is at least one caret. -/
def underline (color : Bool) (level : Level) (label : Label) : String :=
  let indent := String.ofList (List.replicate (label.column - 1) ' ')
  let carets := String.ofList (List.replicate (max label.length 1) '^')
  indent ++ paint color level.underlineInk (Text.trimEnd (carets ++ " " ++ label.message))

/-- The line that a diagnostic is about, below its location and above the underlines. -/
def snippet (color : Bool) (d : Diagnostic) (location : Location) : List String :=
  let gutter := toString location.line
  let pad := String.ofList (List.replicate gutter.length ' ')
  let bar := paint color ⟨.blue, false⟩ "|"
  let excerpt := match d.sourceLine with
    | none => []
    | some line =>
      (paint color ⟨.blue, true⟩ gutter ++ " " ++ bar ++ " " ++ line) ::
        d.labels.map fun label => pad ++ " " ++ bar ++ " " ++ underline color d.level label
  [pad ++ "--> " ++ paint color ⟨.blue, false⟩ location.text, pad ++ " " ++ bar] ++ excerpt ++
    [pad ++ " " ++ bar]

def render (color : Bool) (d : Diagnostic) : String :=
  let title := d.level.render color ++ "[" ++ paint color ⟨.cyan, false⟩ d.code ++ "]: " ++ d.message
  let place := match d.location with
    | none => []
    | some location => d.snippet color location
  let help := match d.help with
    | none => []
    | some text =>
      let mark := paint color ⟨.blue, false⟩ "=" ++ " " ++ paint color ⟨.green, true⟩ "help"
      ["   " ++ mark ++ ": " ++ text]
  unlines (title :: place ++ help)

end Diagnostic

end ClassCheck
