import SchemaReconcile.Text.Blank
import SchemaReconcile.Text.CaseMapping
import SchemaReconcile.Text.Integer

/-!
# The environment

Settings are read from the variables of the environment: texts as they are, truth values by a few words,
and integers in decimal.
-/

namespace SchemaReconcile.Settings

/-- The variables of the environment. -/
abbrev Environment := List (String × String)

namespace Environment

/-- The text of a variable, or another one if it is not set. -/
def text (env : Environment) (name default : String) : String := (env.lookup name).getD default

/-- The text of a variable that is set and not empty. -/
def filled? (env : Environment) (name : String) : Option String :=
  (env.lookup name).filter fun s => !s.isEmpty

/-- The words that switch a setting on. -/
def onWords : List String := ["1", "true", "yes", "on"]

/-- Whether a text, in any case and with blanks around it, is a word that switches a setting on. -/
def isOn (text : String) : Bool :=
  onWords.contains (String.ofList (Text.lower (Text.trimBoth Text.isBlank text.toList)))

/-- The truth value of a variable that is set and not empty, and another one otherwise. -/
def flag (env : Environment) (name : String) (default : Bool) : Bool :=
  match env.filled? name with
  | none => default
  | some s => isOn s

/-- The integer of a variable that is set, and another one otherwise. -/
def integer (env : Environment) (name : String) (default : Int) : Except Text.IntegerFault Int :=
  match env.lookup name with
  | none => .ok default
  | some s => Text.readInteger s

end Environment

end SchemaReconcile.Settings
