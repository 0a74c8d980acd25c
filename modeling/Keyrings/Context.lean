import Keyrings.Fault
import Keyrings.Text.Plain

/-! Contexts, the names of keyrings. A context is one or more characters from the space to U+007F
other than the slash, the backslash and the full stop, so that it is a plain file name and can be
extended by an ending that no context has. -/

namespace Keyrings.Context

def allows (c : Char) : Bool := ' ' ≤ c && c ≤ '\x7f' && c != '/' && c != '\\' && c != '.'

def isValid (text : List Char) : Bool := !text.isEmpty && text.all allows

def isValidBytes (bytes : List UInt8) : Bool := isValid (Text.Plain.characters bytes)

/-- The context, or the fault that says that it is none. -/
def check (text : List Char) : Except Fault (List Char) :=
  if isValid text then .ok text else .error (.invalidInput (.context text))

end Keyrings.Context
