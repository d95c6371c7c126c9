import MktSim.Api.Handlers
import MktSim.Lib.Rows

set_option autoImplicit false

namespace MktSim

open Sql

structure Roles where
  bits : Int64
deriving DecidableEq

def Roles.empty : Roles := ⟨0⟩

def Roles.ADMIN : Roles := ⟨(1 : Int64) <<< 0⟩

def Roles.all : Roles := Roles.ADMIN

def Roles.fromBitsTruncate (bits : Int64) : Roles := ⟨bits &&& Roles.all.bits⟩

def Roles.contains (roles other : Roles) : Bool := roles.bits &&& other.bits == other.bits

theorem contains_empty (roles : Roles) : roles.contains .empty = true := by
  simp [Roles.contains, Roles.empty]

structure User where
  id : Uuid
  email : String
  password : String
  roleFlags : Roles
deriving DecidableEq

def users : Schema User Uuid String := ⟨User.id, User.email⟩

abbrev Users := Rows users

structure NewAccountForm where
  email : String
  password : String
deriving DecidableEq

-- A statement as its caller sees it. It may be carried out without an answer.
def insertUser (call : Call) (user : User) (table : Users) : Except Status Unit × Users :=
  match perform call (Rows.insert user) table with
  | (.ok (), next) => (.ok (), next)
  | (.error (some .uniqueViolation), next) => (.error .conflict, next)
  | (.error _, next) => (.error .internalServerError, next)

def localBcrypt (salt password : String) : Option String :=
  if salt = "R9h/cIPz0gi.URNNX3kh2O" ∧ password = "abc123xyz" then
    some "$2b$12$R9h/cIPz0gi.URNNX3kh2OPST9/PgBkqquzi.Ss7KIUgO2t0jWMUW"
  else none

end MktSim
