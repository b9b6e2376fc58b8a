import LuaGlobals.Whitelist.Basic

/-! # The standard globals of Lua

For each release of the language, the globals that its standard library defines and the members of
those that are tables.

* `standardFunctions` and `standardLibraries` list the names with the releases that have them.
* `builtin? version` is the whitelist of a version. The dots in the version do not matter.
-/

namespace LuaGlobals.Whitelist

/-- Names that a range of releases has. A release 5.n is written as n. -/
structure NameSpan where
  /-- The first release. -/
  first : Nat
  /-- The last release. -/
  last : Nat
  /-- The names. -/
  names : List String
deriving DecidableEq, Repr

/-- The names that a release has. -/
def namesIn (release : Nat) (spans : List NameSpan) : List String :=
  (spans.filter fun span => span.first ≤ release && release ≤ span.last).flatMap (·.names)

/-- The standard globals that are no tables. -/
def standardFunctions : List NameSpan :=
  [⟨1, 4,
      ["_G", "_VERSION", "assert", "collectgarbage", "dofile", "error", "getmetatable", "ipairs",
       "load", "loadfile", "next", "pairs", "pcall", "print", "rawequal", "rawget", "rawset",
       "require", "select", "setmetatable", "tonumber", "tostring", "type", "xpcall"]⟩,
   ⟨1, 1, ["gcinfo", "getfenv", "loadstring", "module", "newproxy", "setfenv", "unpack"]⟩,
   ⟨2, 4, ["rawlen"]⟩,
   ⟨4, 4, ["warn"]⟩]

/-- The standard libraries with their members. -/
def standardLibraries : List (String × List NameSpan) :=
  [("bit32",
      [⟨2, 2,
          ["arshift", "band", "bnot", "bor", "btest", "bxor", "extract", "lrotate", "lshift",
           "replace", "rrotate", "rshift"]⟩]),
    ("coroutine",
      [⟨1, 4, ["create", "resume", "running", "status", "wrap", "yield"]⟩,
       ⟨3, 4, ["isyieldable"]⟩,
       ⟨4, 4, ["close"]⟩]),
    ("debug",
      [⟨1, 4,
          ["debug", "gethook", "getinfo", "getlocal", "getmetatable", "getregistry", "getupvalue",
           "sethook", "setlocal", "setmetatable", "setupvalue", "traceback"]⟩,
       ⟨1, 1, ["getfenv", "setfenv"]⟩,
       ⟨2, 4, ["getuservalue", "setuservalue", "upvalueid", "upvaluejoin"]⟩]),
    ("io",
      [⟨1, 4,
          ["close", "flush", "input", "lines", "open", "output", "popen", "read", "stderr", "stdin",
           "stdout", "tmpfile", "type", "write"]⟩]),
    ("math",
      [⟨1, 4,
          ["abs", "acos", "asin", "atan", "ceil", "cos", "deg", "exp", "floor", "fmod", "huge",
           "log", "max", "min", "modf", "pi", "rad", "random", "randomseed", "sin", "sqrt", "tan"]⟩,
       ⟨1, 1, ["log10", "mod"]⟩,
       ⟨1, 2, ["atan2", "cosh", "frexp", "ldexp", "pow", "sinh", "tanh"]⟩,
       ⟨3, 4, ["maxinteger", "mininteger", "tointeger", "type", "ult"]⟩]),
    ("os",
      [⟨1, 4,
          ["clock", "date", "difftime", "execute", "exit", "getenv", "remove", "rename",
           "setlocale", "time", "tmpname"]⟩]),
    ("package",
      [⟨1, 4, ["config", "cpath", "loaded", "loadlib", "path", "preload"]⟩,
       ⟨1, 1, ["loaders", "seeall"]⟩,
       ⟨2, 4, ["searchers", "searchpath"]⟩]),
    ("string",
      [⟨1, 4,
          ["byte", "char", "dump", "find", "format", "gmatch", "gsub", "len", "lower", "match",
           "rep", "reverse", "sub", "upper"]⟩,
       ⟨1, 1, ["gfind"]⟩,
       ⟨3, 4, ["pack", "packsize", "unpack"]⟩]),
    ("table",
      [⟨1, 4, ["concat", "insert", "remove", "sort"]⟩,
       ⟨1, 1, ["foreach", "foreachi", "getn", "maxn", "setn"]⟩,
       ⟨2, 4, ["pack", "unpack"]⟩,
       ⟨3, 4, ["move"]⟩]),
    ("utf8",
      [⟨3, 4, ["char", "charpattern", "codepoint", "codes", "len", "offset"]⟩])]

/-- The identity of every standard global. -/
def builtinIdentity : String := "bool"

/-- The entries of symbols. -/
def symbols (names : List String) : Entries :=
  names.map fun name => (name, .symbol builtinIdentity)

/-- The standard globals of a release. A library without members in the release is not there. -/
def standardGlobals (release : Nat) : Entries :=
  let libraries := standardLibraries.map fun (name, spans) => (name, namesIn release spans)
  symbols (namesIn release standardFunctions)
    ++ (libraries.filter (!·.2.isEmpty)).map fun (name, members) =>
      (name, .table (symbols members))

/-- The whitelist of the standard globals of a version, written with or without dots. -/
def builtin? (version : String) : Option Entries :=
  match String.ofList (version.toList.filter (· != '.')) with
  | "51" => some (standardGlobals 1)
  | "52" => some (standardGlobals 2)
  | "53" => some (standardGlobals 3)
  | "54" => some (standardGlobals 4)
  | _ => none

end LuaGlobals.Whitelist
