import MacroExpand.Settings.DotEnv
import MacroExpand.Text.Case
import MacroExpand.Data.Json
import MacroExpand.Value.PathText

/-!
# Settings

Settings have defaults, are overridden by a variable file, and are overridden again by the
environment.  Names of variables are compared without regard to case.
-/

set_option autoImplicit false

namespace MacroExpand

/-- How far a macro's result is shared: by name, by file and name, or by name and text. -/
inductive CachePolicy where
  | name
  | file
  | content
  deriving DecidableEq, Repr, Inhabited

/-- The settings of an expansion. -/
structure Settings where
  appName : Text := chars "macrobuild"
  appVersion : Text := chars "0.1.0"
  logLevel : Text := chars "INFO"
  /-- The text that makes a function a macro. -/
  directive : Text := chars "use macro"
  cachePolicy : CachePolicy := .file
  /-- Which files are expanded, as a pattern searched in their paths. -/
  filePattern : Text := chars "\\.pyw?$"
  stripAnnotations : Bool := true
  typeComments : Bool := false
  retainLines : Bool := true
  provenanceComments : Bool := true
  provenanceTag : Text := chars "@__MACRO__"
  emitSourceMaps : Bool := true
  /-- Which variables macros see; `none` means all. -/
  environmentAllowed : Option (List Text) := none
  deriving DecidableEq, Repr, Inhabited

inductive SettingFault where
  | notBoolean
  | notChoice
  | notList
  | notText
  deriving DecidableEq, Repr, Inhabited

def SettingFault.code : SettingFault → String
  | .notBoolean => "bool_parsing"
  | .notChoice => "literal_error"
  | .notList => "list_type"
  | .notText => "string_type"

structure SettingError where
  field : String
  fault : SettingFault
  deriving DecidableEq, Repr, Inhabited

inductive SettingsError where
  | refused (errors : List SettingError)
  /-- The variable file is no text. -/
  | undecodable (error : Utf8Error)
  deriving DecidableEq, Repr, Inhabited

namespace Settings

def boolOf? (text : Text) : Option Bool :=
  let word := String.ofList (text.map Char.toLower)
  if ["1", "on", "t", "true", "y", "yes"].contains word then some true
  else if ["0", "off", "f", "false", "n", "no"].contains word then some false
  else none

def policyOf? (text : Text) : Option CachePolicy :=
  if text = chars "name" then some .name
  else if text = chars "file" then some .file
  else if text = chars "content" then some .content
  else none

def namesOf (text : Text) : Except (List SettingFault) (Option (List Text)) :=
  match Json.parse text with
  | .ok .null => .ok none
  | .ok (.arr items) =>
    let names := items.filterMap fun item => match item with
      | .str s => some s
      | _ => none
    if names.length = items.length then .ok (some names)
    else .error (List.replicate (items.length - names.length) .notText)
  | _ => .error [.notList]

def lookup (given : List (Text × Option Text)) (field : String) : Option (Option Text) :=
  let name := chars "macrobuild_" ++ field.toList
  (given.reverse.find? fun e => e.1.lower == name).map Prod.snd

/-- Variables by source, the stronger one first. -/
structure Variables where
  environment : List (Text × Option Text)
  file : List (Text × Option Text)

def Variables.value? (v : Variables) (field : String) : Option Text :=
  ((lookup v.environment field).bind id).orElse fun _ => (lookup v.file field).bind id

def assign {α : Type} (given : Variables) (field : String)
    (read : Text → Except (List SettingFault) α) (put : Settings → α → Settings)
    (current : Settings × List SettingError) : Settings × List SettingError :=
  match given.value? field with
  | none => current
  | some text =>
    match read text with
    | .ok v => (put current.1 v, current.2)
    | .error faults => (current.1, current.2 ++ faults.map fun fault => ⟨field, fault⟩)

def readBool (text : Text) : Except (List SettingFault) Bool :=
  match boolOf? text with
  | some b => .ok b
  | none => .error [.notBoolean]

def readPolicy (text : Text) : Except (List SettingFault) CachePolicy :=
  match policyOf? text with
  | some p => .ok p
  | none => .error [.notChoice]

def ofVariables (given : Variables) : Except SettingsError Settings :=
  let start : Settings × List SettingError := ({}, [])
  let (settings, errors) := start
    |> assign given "app_name" .ok (fun s v => { s with appName := v })
    |> assign given "app_version" .ok (fun s v => { s with appVersion := v })
    |> assign given "log_level" .ok (fun s v => { s with logLevel := v })
    |> assign given "directive" .ok (fun s v => { s with directive := v })
    |> assign given "cache_policy" readPolicy (fun s v => { s with cachePolicy := v })
    |> assign given "file_pattern" .ok (fun s v => { s with filePattern := v })
    |> assign given "strip_annotations" readBool (fun s v => { s with stripAnnotations := v })
    |> assign given "type_comments" readBool (fun s v => { s with typeComments := v })
    |> assign given "retain_lines" readBool (fun s v => { s with retainLines := v })
    |> assign given "provenance_comments" readBool
        (fun s v => { s with provenanceComments := v })
    |> assign given "provenance_tag" .ok (fun s v => { s with provenanceTag := v })
    |> assign given "emit_source_maps" readBool (fun s v => { s with emitSourceMaps := v })
    |> assign given "sandbox_env_allowlist" namesOf
        (fun s v => { s with environmentAllowed := v })
  if errors.isEmpty then .ok settings else .error (.refused errors)

def load (env : List (Text × Text)) (file : Option (List UInt8)) : Except SettingsError Settings := do
  let text ← (DotEnv.decode (file.getD [])).mapError SettingsError.undecodable
  ofVariables ⟨env.map fun (name, value) => (name, some value), DotEnv.read env text⟩

def visible (settings : Settings) (env : List (Text × Text)) : List (Text × Text) :=
  match settings.environmentAllowed with
  | none => env
  | some names => env.filter fun e => names.contains e.1

/-- Whether a file is parsed with type comments: stubs always are. -/
def typeCommentsFor (settings : Settings) (path : Text) : Bool :=
  (PathText.posix path).suffix == chars ".pyi" || settings.typeComments

end Settings

end MacroExpand
