import AstraGate.Database
import AstraGate.Lib.Python
import Mathlib.Logic.Function.Basic

open Python Function

namespace Admin

-- `line.strip().startswith("cache:")`
def OpensCache (line : String) : Prop :=
  "cache:".toList <+: strip line.toList

-- A line that is not blank, and starts neither with a blank nor with a comment.
def Unindented (line : String) : Prop :=
  strip line.toList ≠ [] ∧ ¬" ".toList <+: line.toList ∧ ¬"#".toList <+: line.toList

instance : DecidablePred OpensCache :=
  fun _ => inferInstanceAs (Decidable (_ <+: _))

instance : DecidablePred Unindented :=
  fun _ => inferInstanceAs (Decidable (_ ∧ _))

def ttlLine (enabled : Bool) : String :=
  if enabled then "  ttl: 3600\n" else "  ttl: 0\n"

-- The loop of `toggle_exact_cache`.
def toggleLines (enabled : Bool) : (inCache : Bool) → (lines : List String) → List String
  | _, []                 => []
  | inCache, line :: lines =>
    if OpensCache line then line :: toggleLines enabled true lines
    else if inCache then
      if Unindented line then line :: toggleLines enabled false lines
      else if Contains line "ttl:" then ttlLine enabled :: toggleLines enabled true lines
      else line :: toggleLines enabled true lines
    else line :: toggleLines enabled false lines

-- The files that exist, with the lines that `readlines` returns.
abbrev Files := String → Option (List String)

def configPaths : List String :=
  ["../litellm/litellm_config.yaml", "litellm/litellm_config.yaml", "./litellm/litellm_config.yaml"]

-- `candidate` is the path of the file relative to that of the module. The file that is found is
-- taken to be readable and writable.
def toggleExactCache (candidate : String) (enabled : Bool) (files : Files) :
    Except HTTPException Bool × Files :=
  match configPaths ++ [candidate] |>.findSome? fun path => (files path).map (path, ·) with
  | none => (.error { statusCode := 500, detail := "litellm_config.yaml not found" }, files)
  | some (path, lines) => (.ok enabled, update files path (some (toggleLines enabled false lines)))

end Admin
