import McpBridge.Grants.Template
/-!
# What a sudoers line grants

The text after `NOPASSWD: ` is a list of commands separated by commas that no
backslash precedes; a command is a path followed by its arguments, separated
by blanks. The two sections read the lines the program produces this way: the
lines `renderSudoersSpec` renders, and every line the setuid helper's gate
`specWellFormed` (`priv/main.c`) lets through.
-/

open McpBridge.Lib

namespace McpBridge.Grants

structure Command where
  path : Str
  args : List Str
deriving DecidableEq

/-- The text after `NOPASSWD: `, without the newline. -/
def commandText (line : Str) : Option Str :=
  (after (lit "NOPASSWD: ") line).map fun t => if t.getLast? = some (ch '\n') then t.dropLast else t

/-- The elements of the command list. -/
def commandList (line : Str) : Option (List Str) :=
  (commandText line).map (splitUnescaped (ch ',') (ch '\\') false)

/-- A path followed by its arguments. -/
def parseCommand (t : Str) : Option Command :=
  match words t with
  | [] => none
  | p :: as => some ⟨p, as⟩

/-- The commands a line grants; an element without a path is `none`. -/
def denotes (line : Str) : Option (List (Option Command)) := (commandList line).map (·.map parseCommand)

/-- Nothing before the commands hides the marker: user names and run-as
prefixes have no capital `N`. -/
theorem commandText_append {pre t : Str} (h : ch 'N' ∉ pre) :
    commandText (pre ++ lit "NOPASSWD: " ++ t ++ lit "\n") = some t := by
  have hm : lit "NOPASSWD: " = ch 'N' :: lit "OPASSWD: " := by decide
  rw [commandText, List.append_assoc, List.append_assoc, hm, after_append h]
  simp [lit]

/-! ## Rendered lines -/

def isPathChar (c : UInt8) : Bool := isAlnum c || c = ch '/' || c = ch '.' || c = ch '_' || c = ch '-'

/-- An absolute path of letters, digits, `/`, `.`, `_` and `-`. -/
def IsAbsolutePath (p : Str) : Prop := p.head? = some (ch '/') ∧ p.all isPathChar = true

instance (p : Str) : Decidable (IsAbsolutePath p) := by unfold IsAbsolutePath; infer_instance

theorem not_blank_of_pathChar {c : UInt8} (h : isPathChar c = true) : isBlank c = false := by
  by_contra hb
  simp only [isBlank, Bool.not_eq_false, Bool.or_eq_true, decide_eq_true_eq] at hb
  rcases hb with rfl | rfl <;> exact absurd h (by decide)

theorem isWord_path {p : Str} (h : IsAbsolutePath p) : IsWord p := by
  refine isWord_of_all ?_ h.2 fun c hc => not_blank_of_pathChar hc
  rintro rfl
  exact absurd h.1 (by simp)

theorem isWord_arg {v : Str} (h : argValueCharsetOk v = true) : IsWord v := by
  simp only [argValueCharsetOk, Bool.and_eq_true, decide_eq_true_eq] at h
  exact isWord_of_all h.1 h.2 fun c hc => not_blank_of_argChar hc

theorem mem_unwords {x : UInt8} {ws : List Str} (h : x ∈ unwords ws) : x = ch ' ' ∨ ∃ w ∈ ws, x ∈ w := by
  cases ws with
  | nil => simp [unwords] at h
  | cons w ws =>
    rw [unwords_cons] at h
    simp only [List.mem_append, List.mem_flatMap, List.mem_cons] at h
    rcases h with h | ⟨v, hv, rfl | h⟩
    · exact .inr ⟨w, by simp, h⟩
    · exact .inl rfl
    · exact .inr ⟨v, by simp [hv], h⟩

theorem mem_unwords_of_mem {x : UInt8} {w : Str} {ws : List Str} (hw : w ∈ ws) (h : x ∈ w) : x ∈ unwords ws := by
  cases ws with
  | nil => cases hw
  | cons v vs =>
    rw [unwords_cons]
    rcases List.mem_cons.1 hw with rfl | hw
    · exact List.mem_append_left _ h
    · exact List.mem_append_right _ (List.mem_flatMap.2 ⟨w, hw, by simp [h]⟩)

/-- The user and host part of a rendered line has no `N`. -/
theorem no_marker_before {shortid : Str} (h : validShortid shortid = true) :
    ch 'N' ∉ lit "mcp_user_" ++ shortid ++ lit " ALL=(root) " := by
  simp only [validShortid, Bool.and_eq_true] at h
  have hs : ch 'N' ∉ shortid := not_mem_of_all h.2 (by decide)
  simp only [List.mem_append, not_or]
  exact ⟨⟨by decide, hs⟩, by decide⟩

theorem commandText_rendered {regexMatch : Str → Str → RegexResult} {shortid : Str} {tmpl : GrantTemplate}
    {args : Json} {line : Str} (h : renderSudoersSpec regexMatch shortid tmpl args = .ok line) :
    commandText line = some (unwords (tmpl.binary :: tmpl.argv.map (argOf args))) := by
  obtain ⟨hs, cmd, hc, rfl⟩ := renderSudoersSpec_ok h
  have e : lit " ALL=(root) NOPASSWD: " = lit " ALL=(root) " ++ lit "NOPASSWD: " := by decide
  rw [e, ← List.append_assoc, commandText_append (no_marker_before hs), (renderCommand_ok hc).1]

/-- A rendered line grants exactly one command, the binary applied to the
template's arguments, if and only if none of those arguments has a comma. -/
theorem rendered_denotes_one_command_iff (regexMatch : Str → Str → RegexResult) (tmpl : GrantTemplate) (args : Json)
    (shortid line : Str) (hbin : IsAbsolutePath tmpl.binary)
    (hr : renderSudoersSpec regexMatch shortid tmpl args = .ok line) :
    denotes line = some [some ⟨tmpl.binary, tmpl.argv.map (argOf args)⟩] ↔
      ∀ piece ∈ tmpl.argv, ch ',' ∉ argOf args piece := by
  obtain ⟨-, cmd, hc, -⟩ := renderSudoersSpec_ok hr
  have hargs := (renderCommand_ok hc).2
  have hwords : ∀ w ∈ tmpl.binary :: tmpl.argv.map (argOf args), IsWord w := by
    simp only [List.forall_mem_cons, List.forall_mem_map]
    exact ⟨isWord_path hbin, fun p hp => isWord_arg (hargs p hp)⟩
  have hcomma : ch ',' ∉ tmpl.binary := not_mem_of_all hbin.2 (by decide)
  -- No character that the two charsets admit is a backslash, so every comma separates.
  have hesc : ch '\\' ∉ unwords (tmpl.binary :: tmpl.argv.map (argOf args)) := by
    intro hm
    rcases mem_unwords hm with h | ⟨w, hw, h⟩
    · exact absurd h (by decide)
    · simp only [List.mem_cons, List.mem_map] at hw
      rcases hw with rfl | ⟨p, hp, rfl⟩
      · exact not_mem_of_all hbin.2 (by decide) h
      · have := hargs p hp
        simp only [argValueCharsetOk, Bool.and_eq_true] at this
        exact not_mem_of_all this.2 (by decide) h
  simp only [denotes, commandList, commandText_rendered hr, Option.map_some, Option.some.injEq]
  constructor
  · intro h piece hp hm
    have hlen := congrArg List.length h
    simp only [List.length_map, length_splitUnescaped hesc, List.length_singleton] at hlen
    have hin : ch ',' ∈ unwords (tmpl.binary :: tmpl.argv.map (argOf args)) :=
      mem_unwords_of_mem (List.mem_cons_of_mem _ (List.mem_map.2 ⟨piece, hp, rfl⟩)) hm
    have := List.count_pos_iff.2 hin
    omega
  · intro h
    have hno : ch ',' ∉ unwords (tmpl.binary :: tmpl.argv.map (argOf args)) := by
      intro hm
      rcases mem_unwords hm with hs | ⟨w, hw, hc'⟩
      · exact absurd hs (by decide)
      · simp only [List.mem_cons, List.mem_map] at hw
        rcases hw with rfl | ⟨p, hp, rfl⟩
        · exact hcomma hc'
        · exact h p hp hc'
    rw [splitUnescaped_single _ hno, List.map_singleton, parseCommand, words_unwords hwords]

/-- `systemctl restart {unit}`. -/
def restartTemplate : GrantTemplate where
  name := lit "restart"
  description := []
  binary := lit "/usr/bin/systemctl"
  argv := [lit "restart", lit "{unit}"]
  params := AList.singleton (lit "unit") (lit ".*")

theorem restart_nginx_denotes_one_command :
    denotes (lit "mcp_user_abcdefgh ALL=(root) NOPASSWD: /usr/bin/systemctl restart nginx\n") =
      some [some ⟨lit "/usr/bin/systemctl", [lit "restart", lit "nginx"]⟩] := by
  have hrender : renderSudoersSpec (fun _ _ => .matched) (lit "abcdefgh") restartTemplate (.obj [(lit "unit", .str (lit "nginx"))]) =
      .ok (lit "mcp_user_abcdefgh ALL=(root) NOPASSWD: /usr/bin/systemctl restart nginx\n") := by
    repeat rw [lit_ofList]
    rfl
  exact (rendered_denotes_one_command_iff (fun _ _ => .matched) restartTemplate (.obj [(lit "unit", .str (lit "nginx"))])
    (lit "abcdefgh") _ (by decide) hrender).2 (by decide)

/-- A captured `x,/bin/sh` passes every check and grants a second command. -/
theorem comma_grants_second_command :
    IsAbsolutePath restartTemplate.binary ∧
    renderSudoersSpec (fun _ _ => .matched) (lit "abcdefgh") restartTemplate
      (.obj [(lit "unit", .str (lit "x,/bin/sh"))]) =
        .ok (lit "mcp_user_abcdefgh ALL=(root) NOPASSWD: /usr/bin/systemctl restart x,/bin/sh\n") ∧
    specIsWellFormed (lit "mcp_user_abcdefgh ALL=(root) NOPASSWD: /usr/bin/systemctl restart x,/bin/sh\n") = true ∧
    denotes (lit "mcp_user_abcdefgh ALL=(root) NOPASSWD: /usr/bin/systemctl restart x,/bin/sh\n") =
      some [some ⟨lit "/usr/bin/systemctl", [lit "restart", lit "x"]⟩, some ⟨lit "/bin/sh", []⟩] := by
  repeat rw [lit_ofList]
  exact ⟨by decide, by rfl, by decide, by decide⟩

end McpBridge.Grants
