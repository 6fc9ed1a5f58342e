import TypeSurface.Profile.Basic

/-!
# Profiles of the modes

JavaScript promises the members and globals that its programs rely on.  Host-native code promises
that nothing of the browser, the file system and the process is to be seen.
-/

namespace TypeSurface
namespace Profile

def arrayMembers : List String :=
  ["length", "push", "pop", "shift", "unshift", "slice", "splice", "indexOf", "lastIndexOf",
    "every", "some", "forEach", "map", "filter", "reduce", "find", "findIndex", "includes", "sort",
    "reverse", "concat", "join", "at", "flat", "flatMap"]

def stringMembers : List String :=
  ["length", "charAt", "charCodeAt", "indexOf", "lastIndexOf", "includes", "startsWith", "endsWith",
    "slice", "substring", "split", "replace", "search", "match", "toLowerCase", "toUpperCase",
    "trim", "padStart", "padEnd", "repeat", "at"]

def jsGlobals : List String :=
  ["Array", "String", "Number", "Boolean", "Object", "Function", "RegExp", "Math", "JSON",
    "console", "Error", "TypeError", "RangeError", "Map", "Set", "setTimeout", "clearTimeout",
    "setInterval", "clearInterval", "parseInt", "parseFloat", "isNaN", "isFinite"]

/-- Names of the browser, of its network, of the file system and of the process. -/
def hostNames : List String :=
  ["window", "Window", "document", "Document", "navigator", "location", "Element", "HTMLElement",
    "Event", "EventTarget", "localStorage", "sessionStorage", "fetch", "XMLHttpRequest",
    "WebSocket", "Request", "Response", "Headers", "require", "module", "exports", "process",
    "Buffer", "__dirname", "__filename", "fs", "NodeJS"]

/-- The profile that a mode is validated against. -/
def standard : Mode → Profile
  | .js => ofMode .js
    |>.requireMembers "Array" arrayMembers
    |>.requireMembers "ArrayConstructor" ["isArray", "from", "of"]
    |>.requireMembers "String" stringMembers
    |>.requireMembers "Number" ["toFixed", "toString"]
    |>.requireMembers "NumberConstructor" ["isInteger", "isNaN", "MAX_SAFE_INTEGER"]
    |>.requireMembers "ObjectConstructor"
      ["keys", "values", "entries", "assign", "freeze", "create"]
    |>.requireMembers "Function" ["apply", "call", "bind"]
    |>.requireMembers "RegExp" ["exec", "test", "lastIndex", "source"]
    |>.requireMembers "Math"
      ["abs", "floor", "ceil", "round", "min", "max", "random", "sqrt", "pow"]
    |>.requireMembers "JSON" ["parse", "stringify"]
    |>.requireMembers "Console" ["log", "error", "warn"]
    |>.requireMembers "Error" ["name", "message"]
    |>.requireMembers "Map" ["get", "set", "has", "delete", "clear", "forEach", "size"]
    |>.requireMembers "Set" ["add", "has", "delete", "clear", "forEach", "size"]
    |>.requireGlobals jsGlobals
  | .hostNative => (ofMode .hostNative).exclude hostNames

end Profile
end TypeSurface
