import Mathlib.Data.List.Infix

/-! Times, errors, identifiers and the user of a request. -/

namespace WgPortal.Domain

/-- Nanoseconds since Go's zero time. -/
abbrev Time := Int

/-- Nanoseconds. -/
abbrev Duration := Int

def second : Duration := 1000000000
def minute : Duration := 60 * second
def hour : Duration := 60 * minute

namespace Time

def isZero (t : Time) : Bool := t = 0
def before (t u : Time) : Bool := t < u
def after (t u : Time) : Bool := u < t

end Time

/-- Go errors: the sentinels of the domain package, those of gorm and of other
libraries (known by their text), `fmt.Errorf` with a wrapped error and `errors.Join`. -/
inductive Error where
  | notFound
  | notUnique
  | noPermission
  | duplicateEntry
  | invalidData
  | other (text : String)
  | wrap (context : String) (inner : Error)
  | join (first second : Error)
deriving DecidableEq, Repr

namespace Error

/-- The text `err.Error()`. -/
def text : Error → String
  | notFound => "record not found"
  | notUnique => "record not unique"
  | noPermission => "no permission"
  | duplicateEntry => "duplicate entry"
  | invalidData => "invalid data"
  | other text => text
  | wrap context inner => context ++ ": " ++ inner.text
  | join first second => first.text ++ "\n" ++ second.text

/-- `errors.Is(err, target)`. -/
def is : Error → Error → Bool
  | wrap context inner, target => wrap context inner = target || inner.is target
  | join first second, target =>
    join first second = target || first.is target || second.is target
  | err, target => err = target

end Error

/-- `strings.Contains(s, sub)`. -/
def contains (s sub : String) : Bool := decide (sub.toList <:+: s.toList)

abbrev PeerIdentifier := String
abbrev InterfaceIdentifier := String
abbrev UserIdentifier := String
abbrev InterfaceBackend := String

structure ContextUserInfo where
  id : UserIdentifier
  isAdmin : Bool
deriving DecidableEq, Repr

def ctxSystemAdminId : UserIdentifier := "_WG_SYS_ADMIN_"

def systemAdminContextUserInfo : ContextUserInfo := ⟨ctxSystemAdminId, true⟩

/-- Access to the data of `requiredUser`: admins to all, users to their own. -/
def validateUserAccessRights (ctx : ContextUserInfo) (requiredUser : UserIdentifier) :
    Except Error Unit :=
  if ctx.isAdmin then .ok ()
  else if ctx.id = requiredUser then .ok ()
  else .error .noPermission

def validateAdminAccessRights (ctx : ContextUserInfo) : Except Error Unit :=
  if ctx.isAdmin then .ok () else .error .noPermission

structure BaseModel where
  createdBy : String
  updatedBy : String
  createdAt : Time
  updatedAt : Time
deriving DecidableEq, Repr

structure ConfigOption (α : Type) where
  value : α
  overridable : Bool
deriving DecidableEq, Repr

def newConfigOption {α : Type} (value : α) (overridable : Bool) : ConfigOption α :=
  ⟨value, overridable⟩

end WgPortal.Domain
