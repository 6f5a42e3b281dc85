import McpBridge.Core.Common
import McpBridge.Grants.Template
/-!
# Windows grant records (`core/grant_template.cpp`)

On Windows a grant is a JSON record that the daemon renders and the privileged
service stores. `validateGrantRecord` is the daemon's check of a record, the
counterpart of the shape check on sudoers lines.
-/

open McpBridge.Lib McpBridge.Core

namespace McpBridge.Grants

def validGrantidHex (s : Str) : Bool := isHexId s

/-- Looks like `S-1-5-…`. -/
def plausibleSid (s : Str) : Bool :=
  if s.length < 6 ∨ 256 < s.length then false
  else if s.head? ≠ some (ch 'S') ∧ s.head? ≠ some (ch 's') then false
  else if (s.drop 1).take 3 ≠ lit "-1-" then false
  else s.all fun c => isDigit c || c = ch 'S' || c = ch 's' || c = ch '-'

/-- The string under a key, or the empty string. -/
def sval (record : Json) (k : Str) : Str :=
  match record.get? k with
  | some (.str s) => s
  | _ => []

/-- `X:\` or `X:/`, or `/`, after spaces. -/
def isAbsolutePattern (pat : Str) : Bool :=
  match pat.dropWhile (· = ch ' ') with
  | [] => false
  | c :: rest => c = ch '/' || ((isUpper c || isLower c) && match rest with
    | d :: e :: _ => d = ch ':' && (e = ch '\\' || e = ch '/')
    | _ => false)

/-- The daemon's check of a record: an error message, or the empty string. -/
def validateGrantRecord (record : Json) : Str :=
  if !record.isObject then lit "record must be a JSON object"
  else if !validGrantidHex (sval record (lit "grantid")) then lit "invalid or missing grantid"
  else if !validShortid (sval record (lit "shortid")) then lit "invalid or missing shortid"
  else if sval record (lit "sid") ≠ [] ∧ !plausibleSid (sval record (lit "sid")) then lit "malformed sid"
  else if sval record (lit "template") = [] ∨ 32 < (sval record (lit "template")).length then lit "missing template"
  else
    let pat := sval record (lit "command_pattern")
    if pat = [] ∨ 4096 < pat.length then lit "missing command_pattern"
    else if 0 ∈ pat then lit "command_pattern has NUL"
    else if ch '\n' ∈ pat then lit "command_pattern has newline"
    else match record.get? (lit "elevated") with
      | some (.bool _) =>
        match record.get? (lit "expires_at") with
        | none | some (.int _) =>
          if pat ≠ lit "*" ∧ pat.all (· = ch ' ') then lit "command_pattern empty"
          else if pat ≠ lit "*" ∧ !isAbsolutePattern pat then lit "command_pattern must be absolute or '*'"
          else []
        | some _ => lit "expires_at must be integer"
      | _ => lit "missing elevated"

/-- The fields of a record. -/
def grantRecord (grantid shortid sid template commandPattern : Str) (expiresAt : Int64) : Json :=
  .ofFields [(lit "grantid", .str grantid), (lit "shortid", .str shortid), (lit "sid", .str sid),
    (lit "template", .str template), (lit "command_pattern", .str commandPattern), (lit "elevated", .bool true),
    (lit "expires_at", .int expiresAt.toInt)]

/-- The checks both renderers make on the ids. -/
def checkIds (grantid shortid sid : Str) : Except Str Unit :=
  if !validGrantidHex grantid then .error (lit "grant_template: invalid grantid")
  else if !validShortid shortid then .error (lit "grant_template: invalid shortid")
  else if sid ≠ [] ∧ !plausibleSid sid then .error (lit "grant_template: malformed sid")
  else .ok ()

/-- A rendered record passes the daemon's own check. -/
def checkRecord (record : Json) : Except Str Json :=
  let err := validateGrantRecord record
  if err = [] then .ok record else .error (lit "grant_template: " ++ err)

def renderWindowsGrantRecord (regexMatch : Str → Str → RegexResult) (grantid shortid sid : Str)
    (tmpl : GrantTemplate) (capturedArgs : Json) (expiresAt : Int64) : Except Str Json := do
  checkIds grantid shortid sid
  let command ← renderCommand regexMatch tmpl capturedArgs
  checkRecord (grantRecord grantid shortid sid tmpl.name command expiresAt)

def renderWindowsFullAdminRecord (grantid shortid sid : Str) (expiresAt : Int64) : Except Str Json := do
  checkIds grantid shortid sid
  checkRecord (grantRecord grantid shortid sid kFullAdminTemplate (lit "*") expiresAt)

/-- The record of a template, or of `full_admin`. -/
def renderTemplateRecord (regexMatch : Str → Str → RegexResult) (templates : List GrantTemplate)
    (grantid shortid templateName : Str) (capturedArgs : Json) (expiresAt : Int64) : Except Str Json :=
  if templateName = kFullAdminTemplate then renderWindowsFullAdminRecord grantid shortid [] expiresAt
  else match templates.find? (·.name = templateName) with
    | none => .error (lit "grants: unknown template '" ++ templateName ++ lit "'")
    | some tmpl => renderWindowsGrantRecord regexMatch grantid shortid [] tmpl capturedArgs expiresAt

/-- What `request_grant` renders on Windows: the SID is left to the service. -/
def renderRecord (regexMatch : Str → Str → RegexResult) (templates : List GrantTemplate)
    (grantid shortid templateName : Str) (capturedArgs : Json) (expiresAt : Int64) : Except Str Json := do
  let record ← renderTemplateRecord regexMatch templates grantid shortid templateName capturedArgs expiresAt
  let verr := validateGrantRecord record
  if verr = [] then .ok record else .error (lit "grants: " ++ verr)

theorem grantRecord_plain (grantid shortid sid template commandPattern : Str) (expiresAt : Int64) :
    (grantRecord grantid shortid sid template commandPattern expiresAt).plain = true := rfl

theorem checkRecord_valid {record r : Json} (h : checkRecord record = .ok r) :
    r = record ∧ validateGrantRecord record = [] := by
  simp only [checkRecord] at h
  split at h
  · next hv => cases h; exact ⟨rfl, hv⟩
  · cases h

/-- A rendered record is a `grantRecord` for the shortid, with an empty SID. -/
theorem renderRecord_ok {regexMatch : Str → Str → RegexResult} {templates : List GrantTemplate}
    {grantid shortid templateName : Str} {capturedArgs : Json} {expiresAt : Int64} {record : Json}
    (h : renderRecord regexMatch templates grantid shortid templateName capturedArgs expiresAt = .ok record) :
    ∃ template pat, record = grantRecord grantid shortid [] template pat expiresAt := by
  obtain ⟨r, hr, h⟩ := bind_eq_ok.1 h
  simp only at h
  split at h
  swap
  · cases h
  cases h
  simp only [renderTemplateRecord] at hr
  split at hr
  · obtain ⟨-, -, hr⟩ := bind_eq_ok.1 hr
    exact ⟨_, _, (checkRecord_valid hr).1⟩
  split at hr
  · cases hr
  · obtain ⟨-, -, hr⟩ := bind_eq_ok.1 hr
    obtain ⟨command, -, hr⟩ := bind_eq_ok.1 hr
    exact ⟨_, command, (checkRecord_valid hr).1⟩

end McpBridge.Grants
