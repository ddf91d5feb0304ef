import BoundedPrintf.Text.Blank

/-! What happens at a conversion that is not known. The mode comes from a setting of the
environment, which is read once; a mode that is installed takes its place. -/
namespace BoundedPrintf

/-- `compat` skips a directive whose conversion is not known, `strict` rejects it. -/
inductive Mode
  | compat
  | strict
  deriving DecidableEq, Repr

namespace Mode

/-- The canonical name. -/
def name : Mode → String
  | .compat => "compat"
  | .strict => "strict"

def rejectsUnknown : Mode → Bool
  | .compat => false
  | .strict => true

/-- Reads a mode from a setting. The case of ASCII letters and white space around the word make no
difference, and a word that is not known means `compat`. -/
def ofSetting (text : String) : Mode :=
  let word := (Text.trim text.toList).map Char.toLower
  if word = "strict".toList || word = "reject".toList then .strict else .compat

/-- What is known of the mode. While the environment is being read nothing is known yet, and a
question that comes in between is answered without waiting. -/
inductive Cache
  | unresolved
  | resolving
  | known (mode : Mode)
  deriving DecidableEq, Repr

/-- The mode that is answered while this is known. -/
def Cache.mode : Cache → Mode
  | .known mode => mode
  | .unresolved | .resolving => .compat

/-- The mode in force and where it comes from: the text of the environment variable, if it is set to
a text, what is known of the mode, and how often the environment was read. -/
structure Setting where
  environment : Option String := none
  cache : Cache := .unresolved
  readings : Nat := 0
  deriving DecidableEq, Repr

namespace Setting

/-- Reads the environment, which says `compat` where the variable has no text. -/
def read (setting : Setting) : Mode × Setting :=
  ((setting.environment.map ofSetting).getD .compat, { setting with readings := setting.readings + 1 })

/-- Keeps the mode that was read, unless one was installed meanwhile. -/
def settle (setting : Setting) (mode : Mode) : Setting :=
  match setting.cache with
  | .resolving => { setting with cache := .known mode }
  | .unresolved | .known _ => setting

/-- The mode in force. The first question reads the environment if no mode was installed before. -/
def current (setting : Setting) : Mode × Setting :=
  match setting.cache with
  | .known _ | .resolving => (setting.cache.mode, setting)
  | .unresolved =>
      let (mode, setting) := { setting with cache := .resolving : Setting }.read
      let setting := setting.settle mode
      (setting.cache.mode, setting)

def install (setting : Setting) (mode : Mode) : Setting := { setting with cache := .known mode }

end Setting

end Mode

end BoundedPrintf
