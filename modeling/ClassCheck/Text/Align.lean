/-! # Text in columns

Width counts characters. A text that is already wide enough stays as it is.
-/

namespace ClassCheck.Text

def alignLeft (width : Nat) (text : String) : String :=
  text ++ String.ofList (List.replicate (width - text.length) ' ')

def alignRight (width : Nat) (text : String) : String :=
  String.ofList (List.replicate (width - text.length) ' ') ++ text

end ClassCheck.Text
