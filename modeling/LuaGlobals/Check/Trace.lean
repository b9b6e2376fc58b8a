import LuaGlobals.Files.Path

/-! # What a run does outside

A run looks for files and reads them, has the compiler print listings, and writes to the console.
The outside may refuse any of this: a name is too long for the file system, a file holds no text,
the tags of a message do not match. No part of a run takes up a refusal, which so breaks off all of
it. What a run does take up, such as a compiler that cannot be started, is no refusal but a result.

* `LogRecord` is a message, and `Printed` anything else that the console shows.
* `Effect` is one thing that a run does outside, and a `Host` tells which ones are refused.
* `Traced` is a result with the effects that lead to it.
* `Traced.on` is what becomes of a run on a host.
-/

namespace LuaGlobals

/-! ## The console -/

/-- The level of a message. -/
inductive LogLevel where
  /-- Progress. -/
  | info
  /-- All went well. -/
  | success
  /-- Something could not be looked at. -/
  | warning
  /-- Something failed. -/
  | error
deriving DecidableEq, Repr

/-- The word that names a level. -/
def LogLevel.label : LogLevel → String
  | .info => "INFO"
  | .success => "SUCCESS"
  | .warning => "WARNING"
  | .error => "ERROR"

/-- A message to the console. -/
structure LogRecord where
  /-- The level. -/
  level : LogLevel
  /-- The message, which may hold markup. -/
  message : String
deriving DecidableEq, Repr

/-- Something printed to the console. -/
inductive Printed where
  /-- A text with markup. -/
  | text (markup : String)
  /-- A table with markup in its cells. -/
  | table (title : String) (columns : List String) (rows : List (List String))
deriving DecidableEq, Repr

/-! ## Effects -/

/-- One thing that a run does outside. -/
inductive Effect where
  /-- Runs a command. -/
  | execute (command : List String)
  /-- Looks whether a path leads to a file. -/
  | probe (path : FilePath)
  /-- Reads the text of a file that is there. -/
  | read (path : FilePath)
  /-- Writes a message to the console. -/
  | log (record : LogRecord)
  /-- Prints to the console. -/
  | print (printed : Printed)
  /-- Writes to standard output. -/
  | output (text : String)
deriving DecidableEq, Repr

namespace Effect

/-- The message that is written. -/
def record? : Effect → Option LogRecord
  | .log record => some record
  | _ => none

/-- The command that is run. -/
def command? : Effect → Option (List String)
  | .execute command => some command
  | _ => none

end Effect

/-- What a run meets outside. -/
structure Host where
  /-- Whether an effect is refused. -/
  refuses : Effect → Bool

/-! ## Traced results -/

/-- A result, with the effects that lead to it when none is refused. -/
structure Traced (α : Type) where
  /-- The result. -/
  value : α
  /-- The effects, in order. -/
  effects : List Effect
deriving Repr

/-- What became of a run on a host. -/
structure Performed (α : Type) where
  /-- The result, or the effect that was refused. -/
  result : Except Effect α
  /-- The effects that took place, in order. -/
  effects : List Effect
deriving Repr

namespace Traced

variable {α β : Type}

/-- A result without effects. -/
protected def pure (value : α) : Traced α :=
  ⟨value, []⟩

/-- A result that is used in what follows. -/
protected def bind (traced : Traced α) (next : α → Traced β) : Traced β :=
  let after := next traced.value
  ⟨after.value, traced.effects ++ after.effects⟩

/-- Effects without a result. -/
def perform (effects : List Effect) : Traced Unit :=
  ⟨(), effects⟩

/-- The messages, in order. -/
def logs (traced : Traced α) : List LogRecord :=
  traced.effects.filterMap Effect.record?

/-- The first effect that a host refuses. -/
def refused? (host : Host) (traced : Traced α) : Option Effect :=
  traced.effects.find? host.refuses

/-- What becomes of a run on a host: the first effect that is refused breaks it off. -/
def on (host : Host) (traced : Traced α) : Performed α where
  result := (traced.refused? host).elim (.ok traced.value) .error
  effects := traced.effects.takeWhile fun effect => !host.refuses effect

end Traced

instance : Monad Traced where
  pure := Traced.pure
  bind := Traced.bind

namespace Traced

variable {α β : Type} (traced : Traced α) (next : α → Traced β)

@[simp] theorem effects_pure (value : α) : (pure value : Traced α).effects = [] := rfl

@[simp] theorem value_bind : (traced >>= next).value = (next traced.value).value := rfl

@[simp] theorem effects_bind :
    (traced >>= next).effects = traced.effects ++ (next traced.value).effects := rfl

@[simp] theorem logs_pure (value : α) : (pure value : Traced α).logs = [] := rfl

@[simp] theorem logs_bind : (traced >>= next).logs = traced.logs ++ (next traced.value).logs :=
  List.filterMap_append

@[simp] theorem logs_perform (records : List LogRecord) :
    (perform (records.map .log)).logs = records :=
  List.filterMap_map.trans List.filterMap_some

end Traced

end LuaGlobals
