import CodeIndex.Table
import CodeIndex.Text.Case
import CodeIndex.Text.Space

/-!
# CodeIndex.Settings

What the environment decides, and the encodings that it may name.

* `Settings`: the level of the log, the vocabulary that tokens are counted with, and whether usage is
  logged.
* `Encoding`: what cuts texts into tokens. All that is asked of one is how many tokens a text has.
-/

namespace CodeIndex

/-- The variables of the environment; `none` where one is not set. -/
structure Environment where
  logLevel : Option String := none
  encoding : Option String := none
  usageLog : Option String := none
deriving DecidableEq, Repr

structure Settings where
  logLevel : String
  encoding : String
  usageLog : Bool
deriving DecidableEq, Repr

namespace Settings

def switchedOn : List String := ["1", "true", "yes", "on"]

def ofEnvironment (env : Environment) : Settings where
  logLevel := String.ofList (upper (env.logLevel.getD "WARNING").toList)
  encoding := env.encoding.getD "cl100k_base"
  usageLog := switchedOn.contains (String.ofList (lower (trim (env.usageLog.getD "1").toList)))

/-- The levels that a log has, with their ranks. -/
def levels : Table Nat := [
  ("CRITICAL", 50), ("FATAL", 50), ("ERROR", 40), ("WARN", 30), ("WARNING", 30), ("INFO", 20),
  ("DEBUG", 10), ("NOTSET", 0)]

end Settings

structure Encoding where
  count : String → Nat
  /-- Nothing is cut into no tokens. -/
  count_empty : count "" = 0

namespace Encoding

/-- A token for every four characters begun. -/
def quarter : Encoding := ⟨fun text => (text.length + 3) / 4, rfl⟩

def chars : Encoding := ⟨String.length, rfl⟩

/-- A token for every byte of the UTF-8 form. -/
def bytes : Encoding := ⟨String.utf8ByteSize, rfl⟩

end Encoding
end CodeIndex
