import MacroExpand.Settings.Basic

/-!
# Settings as documents

Settings are written as an object with one member for each field, and single fields are overridden
by the members of an object.
-/

set_option autoImplicit false

namespace MacroExpand

def CachePolicy.word : CachePolicy → String
  | .name => "name"
  | .file => "file"
  | .content => "content"

namespace Settings

def toJson (s : Settings) : Json :=
  let field := fun (name : String) (v : Json) => (name.toList, v)
  .obj [field "app_name" (.str s.appName), field "app_version" (.str s.appVersion),
    field "log_level" (.str s.logLevel), field "directive" (.str s.directive),
    field "cache_policy" (.str s.cachePolicy.word.toList),
    field "file_pattern" (.str s.filePattern),
    field "strip_annotations" (.bool s.stripAnnotations),
    field "type_comments" (.bool s.typeComments), field "retain_lines" (.bool s.retainLines),
    field "provenance_comments" (.bool s.provenanceComments),
    field "provenance_tag" (.str s.provenanceTag),
    field "emit_source_maps" (.bool s.emitSourceMaps),
    field "sandbox_env_allowlist" (match s.environmentAllowed with
      | none => .null
      | some names => .arr (names.map .str))]

def override (s : Settings) (name : String) (v : Json) : Settings :=
  let text := match v with
    | .str t => t
    | _ => []
  let flag := match v with
    | .bool b => b
    | _ => false
  match name with
  | "app_name" => { s with appName := text }
  | "app_version" => { s with appVersion := text }
  | "log_level" => { s with logLevel := text }
  | "directive" => { s with directive := text }
  | "cache_policy" => { s with cachePolicy := (policyOf? text).getD .file }
  | "file_pattern" => { s with filePattern := text }
  | "strip_annotations" => { s with stripAnnotations := flag }
  | "type_comments" => { s with typeComments := flag }
  | "retain_lines" => { s with retainLines := flag }
  | "provenance_comments" => { s with provenanceComments := flag }
  | "provenance_tag" => { s with provenanceTag := text }
  | "emit_source_maps" => { s with emitSourceMaps := flag }
  | "sandbox_env_allowlist" => { s with environmentAllowed := names? v }
  | _ => s
where
  names? : Json → Option (List Text)
    | .arr items => some (items.filterMap fun item => match item with
        | .str t => some t
        | _ => none)
    | _ => none

def overrideAll (s : Settings) : Json → Settings
  | .obj members => members.foldl (fun s (k, v) => s.override (String.ofList k) v) s
  | _ => s

end Settings

end MacroExpand
