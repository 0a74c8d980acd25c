import Keyrings.Path

/-! Accounts of the system, as the table of accounts lists them: an account a line, with its name,
its number and its home among fields between colons. -/

namespace Keyrings

structure Account where
  name : List Char
  number : Nat
  home : Path
  deriving DecidableEq

namespace Account

def ofLine? (line : String) : Option Account :=
  match line.splitOn ":" with
  | [name, _, number, _, _, home, _] =>
    number.toNat?.map fun number => ⟨name.toList, number, Path.ofString home⟩
  | _ => none

/-- The accounts in the table; lines of another form are passed over. -/
def ofTable (table : String) : List Account := (table.splitOn "\n").filterMap ofLine?

def homeOf? (accounts : List Account) (number : Nat) : Option Path :=
  (accounts.find? (·.number == number)).map (·.home)

end Account

end Keyrings
