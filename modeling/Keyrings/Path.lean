/-! Paths as text. A path is kept exactly as it was written; only `names` and
`withExtension` look at its parts. -/

namespace Keyrings

/-- A path, with nothing normalised. -/
structure Path where
  text : List Char
  deriving DecidableEq

namespace Path

def ofString (s : String) : Path := ⟨s.toList⟩

def toString (p : Path) : String := String.ofList p.text

def isAbsolute (p : Path) : Bool := p.text.head? == some '/'

/-- Whether a path ends in a separator, so that it can only name a directory. -/
def endsInSeparator (p : Path) : Bool := p.text.getLast? == some '/'

/-- The second path below the first: with one separator between them if the first needs it, and the
second alone if it is absolute. -/
def join (base below : Path) : Path :=
  if below.isAbsolute then below
  else if base.text.isEmpty || base.endsInSeparator then ⟨base.text ++ below.text⟩
  else ⟨base.text ++ '/' :: below.text⟩

/-- A path with a text added to its last name. -/
def extend (p : Path) (ending : List Char) : Path := ⟨p.text ++ ending⟩

/-- The pieces of a text between separators; some may be empty. -/
def pieces : List Char → List (List Char)
  | [] => [[]]
  | c :: cs =>
    if c = '/' then [] :: pieces cs
    else match pieces cs with
      | [] => [[c]]
      | piece :: rest => (c :: piece) :: rest

def names (p : Path) : List (List Char) := (pieces p.text).filter (!·.isEmpty)

/-- A name up to its last full stop. A name that has none is kept whole, and so is one that has
none but its first character. -/
def withoutExtension (name : List Char) : List Char :=
  match name.reverse.dropWhile (· ≠ '.') with
  | _ :: c :: before => (c :: before).reverse
  | _ => name

/-- A path with the extension of its last name replaced, or added if that name has none. Separators
and single full stops behind the last name are dropped. A path that ends in no name, as `/` and
`a/..` do, stays as it is. -/
def withExtension (p : Path) (extension : List Char) : Path :=
  match (pieces p.text).reverse.dropWhile (fun piece => piece = [] ∨ piece = ['.']) with
  | [] => p
  | name :: before =>
    if name = ['.', '.'] then p
    else
      let front := before.reverse.flatMap (· ++ ['/']) ++ withoutExtension name
      ⟨if extension.isEmpty then front else front ++ '.' :: extension⟩

example : (⟨"/h/ring.tar.gz".toList⟩ : Path).withExtension "tmp".toList =
    ⟨"/h/ring.tar.tmp".toList⟩ := by decide

end Path

end Keyrings
