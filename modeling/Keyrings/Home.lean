import Keyrings.Account
import Keyrings.Keyring

/-! Home directories. A home is fixed, or is found the way the system finds it: one's own in the
variable HOME, anybody else's among the accounts. -/

namespace Keyrings

structure HomeDirectory where
  /-- The value of the variable HOME. -/
  declared? : Option (List Char)
  /-- The home of the account that the process runs under. -/
  own? : Option Path
  accounts : List Account

namespace HomeResolver

/-- Everybody's home is the same. -/
def fixed (home : Path) : HomeResolver := fun _ => .ok home

/-- Everybody's home has their name in one directory; one's own has the given name. -/
def perUser (base : Path) (own : List Char) : HomeResolver := fun user =>
  .ok (base.join ⟨user.getD own⟩)

/-- Nobody has a home; the fault tells for whom one was looked for. -/
def failing (message : String) : HomeResolver := fun user =>
  .error (.failed (.reported (message ++ " " ++ String.ofList (Text.Quoted.encodeOption user))))

/-- Homes as the system finds them. A home that is empty is none. -/
def system (known : HomeDirectory) : HomeResolver := fun user =>
  match user with
  | some name =>
    match known.accounts.find? (·.name == name) with
    | some account =>
      if account.home.text.isEmpty then .error (.failed (.homeUnknown name)) else .ok account.home
    | none => .error (.failed (.homeUnknown name))
  | none =>
    match known.declared?.filter (!·.isEmpty) with
    | some home => .ok ⟨home⟩
    | none =>
      match known.own? with
      | some home => .ok home
      | none => .error (.failed .ownHomeUnknown)

end HomeResolver

end Keyrings
