import LiveMap.Config.Setting
import LiveMap.Yaml.Resolution

/-!
# Configuration files

## Main definitions

* `Config.ofFile`: the configuration of a file's text.
* `FileError`: why there is none, with `FileError.message`.
-/

namespace LiveMap

/-- Why a file gives no configuration. -/
inductive FileError where
  | missing
  | malformed (e : Yaml.Error)
  | rejected (e : ConfigError)

/-- What is said about a rejected document of a file. -/
def ConfigError.message (path : String) : ConfigError → String
  | .unknownKey key => "Unknown viewer config key: " ++ key.spell false
  | .notMapping => "Viewer config must be a mapping: " ++ path

/-- What is said about a file that gives no configuration. -/
def FileError.message (path : String) : FileError → String
  | .missing => "Viewer config not found: " ++ path
  | .malformed e => e.message
  | .rejected e => e.message path

/-- The configuration of a file, of which only the text matters; there may be no file. -/
def Config.ofFile (contents : Option String) : Except FileError Config :=
  match contents with
  | none => .error .missing
  | some text =>
    match Yaml.readValue text with
    | .error e => .error (.malformed e)
    | .ok document => (Config.ofDocument document).mapError .rejected

end LiveMap
