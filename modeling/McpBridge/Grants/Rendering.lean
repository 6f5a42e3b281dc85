import McpBridge.Grants.Sudoers
/-!
# What a rendered command says (`core/grant_template.cpp`)

The command of a grant is a text, and the audit trail has the captured
arguments. Both say the same: the text splits back into one token for each
piece, so two captures are rendered alike only if they agree on every
placeholder of the template.
-/

open McpBridge.Lib

namespace McpBridge.Grants

/-- What stands for a piece in a command: a literal as it is, a placeholder's captured value. -/
def Token (capturedArgs : Json) (piece tok : Str) : Prop :=
  argValueCharsetOk tok = true ∧
    (placeholderOf piece = [] → tok = piece) ∧
    (placeholderOf piece ≠ [] → capturedArgs.get? (placeholderOf piece) = some (.str tok))

/-- A piece that passed validation and is a placeholder has a captured string. -/
theorem validatePiece_get {regexMatch : Str → Str → RegexResult} {tmpl : GrantTemplate} {args : Json} {piece : Str}
    (h : validatePiece regexMatch tmpl args piece = []) (hp : placeholderOf piece ≠ []) :
    args.get? (placeholderOf piece) = some (.str (argOf args piece)) := by
  simp only [validatePiece, hp, if_false] at h
  split at h
  · exact absurd h (by simp [lit])
  split at h
  · exact absurd h (by simp [lit])
  · next v hv =>
    rw [hv, argOf]
    split
    · next h0 => exact absurd h0 hp
    · rw [hv]
  · exact absurd h (by simp [lit])

theorem renderCommand_token {regexMatch : Str → Str → RegexResult} {tmpl : GrantTemplate} {args : Json} {cmd : Str}
    (h : renderCommand regexMatch tmpl args = .ok cmd) : ∀ p ∈ tmpl.argv, Token args p (argOf args p) := by
  have hchars := (renderCommand_ok h).2
  simp only [renderCommand] at h
  split at h
  swap
  · cases h
  next hv =>
  simp only [validateCapturedArgs] at hv
  split at hv
  swap
  · exact absurd hv (by decide)
  intro p hp
  refine ⟨hchars p hp, fun h0 => ?_, validatePiece_get (validatePieces_mem hv p hp)⟩
  simp [argOf, h0]

theorem space_notMem_of_charset {v : Str} (h : argValueCharsetOk v = true) : ch ' ' ∉ v := by
  rw [argValueCharsetOk, Bool.and_eq_true] at h
  exact not_mem_of_all h.2 (by decide)

/-- Tokens after single spaces split at the spaces. -/
theorem splitOnP_tokens {t : Str} {toks : List Str} (ht : ch ' ' ∉ t) (h : ∀ u ∈ toks, ch ' ' ∉ u) :
    (t ++ toks.flatMap (ch ' ' :: ·)).splitOnP (· = ch ' ') = t :: toks := by
  have hno : ∀ {u : Str}, ch ' ' ∉ u → ∀ c ∈ u, ¬ decide (c = ch ' ') = true := by
    intro u hu c hc hspace
    rw [of_decide_eq_true hspace] at hc
    exact hu hc
  induction toks generalizing t with
  | nil =>
    rw [List.flatMap_nil, List.append_nil]
    exact List.splitOnP_eq_singleton (by simpa using hno ht)
  | cons u toks ih =>
    obtain ⟨hu, h⟩ := List.forall_mem_cons.1 h
    rw [List.flatMap_cons, List.cons_append, List.splitOnP_append_cons_of_forall_mem (by simpa using hno ht) _ (by simp),
      ih hu h]

/-- The tokens of a command, read back from its text. -/
theorem renderCommand_split {regexMatch : Str → Str → RegexResult} {tmpl : GrantTemplate} {args : Json} {cmd : Str}
    (h : renderCommand regexMatch tmpl args = .ok cmd) :
    ∃ rest, cmd = tmpl.binary ++ rest ∧ rest.splitOnP (· = ch ' ') = [] :: tmpl.argv.map (argOf args) := by
  refine ⟨(tmpl.argv.map (argOf args)).flatMap (ch ' ' :: ·), ?_, ?_⟩
  · rw [(renderCommand_ok h).1, unwords_cons]
  · apply splitOnP_tokens (t := []) List.not_mem_nil
    intro u hu
    obtain ⟨p, hp, rfl⟩ := List.mem_map.1 hu
    exact space_notMem_of_charset (renderCommand_token h p hp).1

/-- Two captures are rendered alike iff they agree on the placeholders of the
template, and a command splits at its spaces into one token for each piece. -/
theorem renderCommand_injective (regexMatch : Str → Str → RegexResult) (tmpl : GrantTemplate) (args args' : Json)
    (cmd cmd' : Str) (h : renderCommand regexMatch tmpl args = .ok cmd) (h' : renderCommand regexMatch tmpl args' = .ok cmd') :
    (cmd = cmd' ↔ ∀ piece ∈ tmpl.argv, placeholderOf piece ≠ [] →
      args.get? (placeholderOf piece) = args'.get? (placeholderOf piece)) ∧
    ∃ rest toks, cmd = tmpl.binary ++ rest ∧ rest.splitOnP (· = ch ' ') = [] :: toks ∧
      List.Forall₂ (Token args) tmpl.argv toks := by
  have htok := renderCommand_token h
  have htok' := renderCommand_token h'
  obtain ⟨rest, hcmd, hsplit⟩ := renderCommand_split h
  obtain ⟨rest', hcmd', hsplit'⟩ := renderCommand_split h'
  have hmap : cmd = cmd' ↔ tmpl.argv.map (argOf args) = tmpl.argv.map (argOf args') := by
    constructor
    · intro heq
      rw [hcmd, hcmd'] at heq
      rw [List.append_cancel_left heq, hsplit'] at hsplit
      exact (List.cons.inj hsplit).2.symm
    · intro heq
      rw [(renderCommand_ok h).1, (renderCommand_ok h').1, heq]
  refine ⟨?_, rest, _, hcmd, hsplit, ?_⟩
  · rw [hmap, List.map_inj_left]
    refine forall₂_congr fun piece hp => ?_
    constructor
    · intro heq hph
      rw [(htok piece hp).2.2 hph, (htok' piece hp).2.2 hph, heq]
    · intro hagree
      by_cases hph : placeholderOf piece = []
      · rw [(htok piece hp).2.1 hph, (htok' piece hp).2.1 hph]
      · have hget := hagree hph
        rw [(htok piece hp).2.2 hph, (htok' piece hp).2.2 hph] at hget
        exact Json.str.inj (Option.some.inj hget)
  · rw [List.forall₂_map_right_iff, List.forall₂_same]
    exact htok

/-- Two units, two commands. -/
theorem restart_injective :
    renderCommand (fun _ _ => .matched) restartTemplate (.obj [(lit "unit", .str (lit "nginx"))]) =
      .ok (lit "/usr/bin/systemctl restart nginx") ∧
    lit "/usr/bin/systemctl restart nginx" ≠ lit "/usr/bin/systemctl restart redis" := by
  have h : renderCommand (fun _ _ => .matched) restartTemplate (.obj [(lit "unit", .str (lit "nginx"))]) =
      .ok (lit "/usr/bin/systemctl restart nginx") := by rfl
  have h' : renderCommand (fun _ _ => .matched) restartTemplate (.obj [(lit "unit", .str (lit "redis"))]) =
      .ok (lit "/usr/bin/systemctl restart redis") := by rfl
  refine ⟨h, fun heq => ?_⟩
  have hagree := (renderCommand_injective (fun _ _ => .matched) restartTemplate _ _ _ _ h h').1.1 heq
  have hget := hagree (lit "{unit}") (by decide) (by decide)
  cases Json.str.inj (Option.some.inj hget)

end McpBridge.Grants
