import McpBridge.Lib.Json
import McpBridge.Lib.Map
/-!
# Grant templates (`core/grant_template.cpp`)

A template fixes a binary and the pieces of its command line; a piece
`{name}` is replaced by the argument captured under that name. `renderCommand`
checks the captured arguments and joins the pieces, `renderSudoersSpec` turns
the command into a sudoers line, and `specIsWellFormed` is the shape check that
every line passes before it is installed.

The parameter regexes run on the C++ library's engine, which only ever
restricts what is accepted: it is the parameter `regexMatch`.
-/

open McpBridge.Lib

namespace McpBridge.Grants

structure GrantTemplate where
  name : Str
  description : Str
  binary : Str
  argv : List Str
  params : Map Str Str

/-- What `std::regex_match` does with a pattern and a value. -/
inductive RegexResult where
  | matched
  | unmatched
  | malformed
deriving DecidableEq

def isShortidChar (c : UInt8) : Bool := isLower c || (ch '2' ≤ c && c ≤ ch '7')

def validShortid (s : Str) : Bool := s.length = 8 && s.all isShortidChar

/-- The name in `{name}`, or the empty string. -/
def placeholderOf (piece : Str) : Str :=
  if piece.length < 3 then []
  else if piece.head? ≠ some (ch '{') ∨ piece.getLast? ≠ some (ch '}') then []
  else (piece.drop 1).take (piece.length - 2)

def isArgChar (c : UInt8) : Bool :=
  isAlnum c || c = ch '_' || c = ch '.' || c = ch '+' || c = ch '/' || c = ch '=' || c = ch ':' ||
    c = ch '@' || c = ch ',' || c = ch '-'

def argValueCharsetOk (v : Str) : Bool := v ≠ [] && v.all isArgChar

section Render
variable (regexMatch : Str → Str → RegexResult)

/-- One turn of the loop of `validateCapturedArgs`: an error message, or the empty string. -/
def validatePiece (tmpl : GrantTemplate) (capturedArgs : Json) (piece : Str) : Str :=
  let ph := placeholderOf piece
  if ph = [] then []
  else match tmpl.params.lookup ph with
    | none => lit "template missing 'params." ++ ph ++ lit "' regex"
    | some re => match capturedArgs.get? ph with
      | none => lit "missing captured arg '" ++ ph ++ lit "'"
      | some (.str v) =>
        if argValueCharsetOk v then
          match regexMatch re v with
          | .matched => []
          | .unmatched => lit "captured arg '" ++ ph ++ lit "' does not match template regex"
          | .malformed => lit "template regex for '" ++ ph ++ lit "' is malformed"
        else lit "captured arg '" ++ ph ++ lit "' contains disallowed characters"
      | some _ => lit "captured arg '" ++ ph ++ lit "' must be a string"

/-- The first message of the pieces, or the empty string. -/
def validatePieces (tmpl : GrantTemplate) (capturedArgs : Json) : List Str → Str
  | [] => []
  | piece :: rest =>
    let err := validatePiece regexMatch tmpl capturedArgs piece
    if err = [] then validatePieces tmpl capturedArgs rest else err

/-- The empty string on success, an error message on failure. -/
def validateCapturedArgs (tmpl : GrantTemplate) (capturedArgs : Json) : Str :=
  if capturedArgs.isObject then validatePieces regexMatch tmpl capturedArgs tmpl.argv
  else lit "captured_args must be a JSON object"

/-- The loop of `renderCommand`, with the text so far. -/
def renderPieces (tmpl : GrantTemplate) (capturedArgs : Json) : Str → List Str → Except Str Str
  | cmd, [] => .ok cmd
  | cmd, piece :: rest =>
    let ph := placeholderOf piece
    if ph = [] then
      if argValueCharsetOk piece then renderPieces tmpl capturedArgs (cmd ++ ch ' ' :: piece) rest
      else .error (lit "grant_template '" ++ tmpl.name ++ lit "': literal argv piece has disallowed chars")
    else match capturedArgs.get? ph with
      | some (.str v) => renderPieces tmpl capturedArgs (cmd ++ ch ' ' :: v) rest
      | some j => .error (lit "incompatible ReferenceType for get_ref, actual type is " ++ j.typeName)
      | none => .error []

/-- The command of a grant: the binary and its arguments. -/
def renderCommand (tmpl : GrantTemplate) (capturedArgs : Json) : Except Str Str :=
  let err := validateCapturedArgs regexMatch tmpl capturedArgs
  if err = [] then renderPieces tmpl capturedArgs tmpl.binary tmpl.argv
  else .error (lit "grant_template: " ++ err)

/-- The sudoers line of a grant. -/
def renderSudoersSpec (shortid : Str) (tmpl : GrantTemplate) (capturedArgs : Json) : Except Str Str :=
  if validShortid shortid then
    (renderCommand regexMatch tmpl capturedArgs).map fun cmd =>
      lit "mcp_user_" ++ shortid ++ lit " ALL=(root) NOPASSWD: " ++ cmd ++ lit "\n"
  else .error (lit "grant_template: invalid shortid '" ++ shortid ++ lit "'")
end Render

def kFullAdminTemplate : Str := lit "full_admin"

/-- The unrestricted line of the `full_admin` template. -/
def renderFullAdminSpec (shortid : Str) : Except Str Str :=
  if validShortid shortid then .ok (lit "mcp_user_" ++ shortid ++ lit " ALL=(ALL) NOPASSWD: ALL\n")
  else .error (lit "grant_template: invalid shortid '" ++ shortid ++ lit "'")

def prefixA : Str := lit "mcp_user_"
def pathMid : Str := lit " ALL=(root) NOPASSWD: /"
def wildcardTail : Str := lit " ALL=(ALL) NOPASSWD: ALL\n"

/-- The daemon's shape check on a rendered line. -/
def specIsWellFormed (spec : Str) : Bool :=
  if spec = [] ∨ 4096 < spec.length then false
  else if spec.getLast? ≠ some (ch '\n') then false
  else if spec.idxOf (ch '\n') ≠ spec.length - 1 then false
  else if spec.dropLast.any (fun c => !isPrint c) then false
  else if !prefixA.isPrefixOf spec then false
  else if spec.length < prefixA.length + 8 then false
  else if ((spec.drop prefixA.length).take 8).any (fun c => !isShortidChar c) then false
  else
    let tail := spec.drop (prefixA.length + 8)
    if pathMid.length ≤ tail.length ∧ pathMid.isPrefixOf tail then true
    else if tail.length = wildcardTail.length ∧ wildcardTail.isPrefixOf tail then true
    else false

/-! ## What rendering produces -/

/-- The argument a piece stands for: the piece itself, or the captured value. -/
def argOf (capturedArgs : Json) (piece : Str) : Str :=
  match placeholderOf piece with
  | [] => piece
  | ph => match capturedArgs.get? ph with
    | some (.str v) => v
    | _ => []

theorem not_blank_of_argChar {c : UInt8} (h : isArgChar c = true) : isBlank c = false := by
  by_contra hb
  simp only [isBlank, Bool.not_eq_false, Bool.or_eq_true, decide_eq_true_eq] at hb
  rcases hb with rfl | rfl <;> exact absurd h (by decide)

/-- A captured value that passed validation is over the argument charset. -/
theorem validatePiece_charset {regexMatch : Str → Str → RegexResult} {tmpl : GrantTemplate} {args : Json}
    {piece v : Str} (h : validatePiece regexMatch tmpl args piece = []) (hp : placeholderOf piece ≠ [])
    (hv : args.get? (placeholderOf piece) = some (.str v)) : argValueCharsetOk v = true := by
  by_contra hc
  simp only [validatePiece, hp, if_false, hv, hc] at h
  split at h
  · exact absurd (congrArg List.length h) (by simp [lit])
  · exact absurd (congrArg List.length h) (by simp [lit])

theorem validatePieces_mem {regexMatch : Str → Str → RegexResult} {tmpl : GrantTemplate} {args : Json} :
    ∀ {ps : List Str}, validatePieces regexMatch tmpl args ps = [] →
      ∀ p ∈ ps, validatePiece regexMatch tmpl args p = []
  | p :: ps, h, q, hq => by
    simp only [validatePieces] at h
    split at h
    · next hp =>
      rcases List.mem_cons.1 hq with rfl | hq
      · exact hp
      · exact validatePieces_mem h q hq
    · next hp => exact absurd h hp

/-- The loop appends one argument per piece, each over the argument charset. -/
theorem renderPieces_ok {regexMatch : Str → Str → RegexResult} {tmpl : GrantTemplate} {args : Json} :
    ∀ {ps : List Str} {cmd out : Str}, (∀ p ∈ ps, validatePiece regexMatch tmpl args p = []) →
      renderPieces tmpl args cmd ps = .ok out →
      out = cmd ++ ps.flatMap (fun p => ch ' ' :: argOf args p) ∧ ∀ p ∈ ps, argValueCharsetOk (argOf args p) = true
  | [], cmd, out, _, h => by cases h; simp
  | p :: ps, cmd, out, hv, h => by
    have hvs : ∀ q ∈ ps, validatePiece regexMatch tmpl args q = [] := fun q hq => hv q (by simp [hq])
    simp only [renderPieces] at h
    split at h
    · next hph =>
      split at h
      · next hok =>
        obtain ⟨rfl, hall⟩ := renderPieces_ok hvs h
        have ha : argOf args p = p := by simp [argOf, hph]
        exact ⟨by simp [ha], by simpa [ha] using ⟨hok, hall⟩⟩
      · cases h
    · next hph =>
      split at h
      · next v hget =>
        obtain ⟨rfl, hall⟩ := renderPieces_ok hvs h
        have ha : argOf args p = v := by
          rw [argOf]
          split
          · next h0 => exact absurd h0 hph
          · simp [hget]
        exact ⟨by simp [ha], by simpa [ha] using ⟨validatePiece_charset (hv p (by simp)) hph hget, hall⟩⟩
      · cases h
      · cases h

theorem unwords_cons (w : Str) (ws : List Str) : unwords (w :: ws) = w ++ ws.flatMap (fun x => ch ' ' :: x) := by
  induction ws generalizing w with
  | nil => simp [unwords]
  | cons x xs ih => rw [unwords, ih x] <;> simp

/-- A rendered command is the binary and the arguments, joined by single spaces. -/
theorem renderCommand_ok {regexMatch : Str → Str → RegexResult} {tmpl : GrantTemplate} {args : Json} {cmd : Str}
    (h : renderCommand regexMatch tmpl args = .ok cmd) :
    cmd = unwords (tmpl.binary :: tmpl.argv.map (argOf args)) ∧
      ∀ p ∈ tmpl.argv, argValueCharsetOk (argOf args p) = true := by
  simp only [renderCommand] at h
  split at h
  · next hv =>
    simp only [validateCapturedArgs] at hv
    split at hv
    · obtain ⟨rfl, hall⟩ := renderPieces_ok (validatePieces_mem hv) h
      exact ⟨by simp [unwords_cons, List.flatMap_map], hall⟩
    · exact absurd hv (by decide)
  · cases h

theorem renderSudoersSpec_ok {regexMatch : Str → Str → RegexResult} {shortid : Str} {tmpl : GrantTemplate}
    {args : Json} {line : Str} (h : renderSudoersSpec regexMatch shortid tmpl args = .ok line) :
    validShortid shortid = true ∧ ∃ cmd, renderCommand regexMatch tmpl args = .ok cmd ∧
      line = lit "mcp_user_" ++ shortid ++ lit " ALL=(root) NOPASSWD: " ++ cmd ++ lit "\n" := by
  simp only [renderSudoersSpec] at h
  split at h
  · next hs =>
    cases hc : renderCommand regexMatch tmpl args with
    | ok cmd => rw [hc] at h; cases h; exact ⟨hs, cmd, rfl, rfl⟩
    | error e => rw [hc] at h; cases h
  · cases h

end McpBridge.Grants
