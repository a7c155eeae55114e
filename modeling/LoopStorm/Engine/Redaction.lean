import LoopStorm.Engine.Policy

/-!
# Redaction engine

`apps/engine/src/redaction.rs`: values under sensitive keys and sensitive
substrings are replaced before anything reaches the audit log.  Regular
expressions and Unicode lower-casing are parameters.

* `Redactor.new` — the patterns in force under a redaction config.
* `Redactor.redact` — the value that is logged.
* `redact_of_disabled` — a disabled redactor changes nothing.
-/

namespace LoopStorm.Engine

/-- The `regex` crate and the standard library's lower-casing. -/
class TextTools where
  /-- `Regex::new(pattern)`, then `replace_all` with a replacement. -/
  regex : String → Option (String → String → String)
  /-- `str::to_lowercase`. -/
  toLowercase : String → String

/-- The text that takes a sensitive value's place. -/
def redacted : String := "[REDACTED]"

/-- Substrings that make an object key sensitive. -/
def sensitiveKeyPatterns : List String :=
  ["password", "secret", "token", "key", "credential", "authorization", "auth", "api_key",
    "apikey", "access_key", "private_key"]

/-- The default value patterns, by name. -/
def defaultPatterns : List RedactionPattern :=
  [⟨"openai_api_key", "sk-[A-Za-z0-9]{20,}", redacted⟩,
    ⟨"publishable_key", "pk-[A-Za-z0-9]{20,}", redacted⟩,
    ⟨"api_prefix_key", "api_[A-Za-z0-9]{20,}", redacted⟩,
    ⟨"bearer_token", "Bearer\\s+[A-Za-z0-9\\-._~+/]+=*", redacted⟩,
    ⟨"aws_access_key", "AKIA[0-9A-Z]{16}", redacted⟩,
    ⟨"jwt", "eyJ[A-Za-z0-9\\-_]+\\.eyJ[A-Za-z0-9\\-_]+\\.[A-Za-z0-9\\-_.+/=]*", redacted⟩,
    ⟨"generic_secret_hex",
      "(?i)(?:secret|password|token|key|credential)[\"':\\s=]+[A-Fa-f0-9]{32,}", redacted⟩]

/-- A compiled value pattern. -/
structure CompiledPattern where
  name : String
  replaceAll : String → String → String
  replacement : String

/-- A compiled redactor with default and custom patterns. -/
structure Redactor where
  enabled : Bool
  valuePatterns : List CompiledPattern
  customKeyPatterns : List String

variable [TextTools]

/-- Compile the patterns that are regular expressions and skip the others. -/
def compilePatterns (patterns : List RedactionPattern) : List CompiledPattern :=
  patterns.filterMap (fun p =>
    (TextTools.regex p.pattern).map (fun replaceAll => ⟨p.name, replaceAll, p.replacement⟩))

/-- Create a new redactor from policy config. -/
def Redactor.new (config : Option RedactionConfig) : Redactor :=
  if (config.map (·.enabled)).getD true then
    { enabled := true
      valuePatterns := compilePatterns defaultPatterns ++
        compilePatterns ((config.bind (·.additionalPatterns)).getD [])
      customKeyPatterns := (config.bind (·.keyPatterns)).getD [] }
  else { enabled := false, valuePatterns := [], customKeyPatterns := [] }

/-- Check if a key name indicates sensitive data. -/
def Redactor.isSensitiveKey (r : Redactor) (key : String) : Bool :=
  let lower := TextTools.toLowercase key
  sensitiveKeyPatterns.any (fun pattern => decide (pattern.toList <:+: lower.toList)) ||
    r.customKeyPatterns.any (fun pattern =>
      decide ((TextTools.toLowercase pattern).toList <:+: lower.toList))

omit [TextTools] in
/-- Apply the value patterns to a string, one after the other. -/
def Redactor.redactString (r : Redactor) (input : String) : String :=
  r.valuePatterns.foldl (fun result p => p.replaceAll result p.replacement) input

mutual

/-- Recursively redact values. -/
def Redactor.redactValue {ν : Type} (r : Redactor) : Json String ν → Json String ν
  | .obj map => .obj (r.redactMembers map)
  | .arr arr => .arr (r.redactElements arr)
  | .str s => .str (r.redactString s)
  | .num n => .num n
  | .bool b => .bool b
  | .null => .null

/-- The elements of an array. -/
def Redactor.redactElements {ν : Type} (r : Redactor) : List (Json String ν) →
    List (Json String ν)
  | [] => []
  | v :: vs => r.redactValue v :: r.redactElements vs

/-- The members of an object: the value of a sensitive key is replaced whole. -/
def Redactor.redactMembers {ν : Type} (r : Redactor) : List (String × Json String ν) →
    List (String × Json String ν)
  | [] => []
  | (key, v) :: rest =>
    (key, if r.isSensitiveKey key then .str redacted else r.redactValue v) ::
      r.redactMembers rest

end

/-- Redact sensitive values from a JSON value. -/
def Redactor.redact {ν : Type} (r : Redactor) (value : Json String ν) : Json String ν :=
  if !r.enabled then value else r.redactValue value

theorem redact_of_disabled {ν : Type} {r : Redactor} (h : r.enabled = false)
    (value : Json String ν) : r.redact value = value :=
  if_pos (by rw [h]; rfl)

end LoopStorm.Engine
