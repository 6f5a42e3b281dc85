import McpBridge.Lib.Bounds
import McpBridge.Tools.FileOps
/-!
# Beneath the allowed root

`isPathAllowed` compares the texts of two canonical paths, and what it stands
for is a relation on their names: the path is the root, or lies beneath it. A
name that only begins with the last name of the root tells the two apart.
-/

open McpBridge.Lib McpBridge.Core

namespace McpBridge.Tools

open FileProg

/-- The answer, given the two canonical paths. -/
theorem isPathAllowed_result {p : Process} {fs : Fs} {allowedRoot path : Str} {canonical root : PathStr}
    (hc : ((weaklyCanonical (toPath path) : FileProg p PathStr).exec fs).result = .ok canonical)
    (hr : ((weaklyCanonical (toPath allowedRoot) : FileProg p PathStr).exec fs).result = .ok root) :
    ((isPathAllowed allowedRoot path : FileProg p Bool).exec fs).result =
      .ok (root.render.isPrefixOf canonical.render) := by
  have hinner : ((do
      let canonical ← weaklyCanonical (toPath path)
      let root ← weaklyCanonical (toPath allowedRoot)
      pure (root.render.isPrefixOf canonical.render) : FileProg p Bool).exec fs).result =
      .ok (root.render.isPrefixOf canonical.render) := by
    rw [result_bind (looks_weaklyCanonical _) hc, result_bind (looks_weaklyCanonical _) hr]
    rfl
  unfold isPathAllowed
  refine (result_bind (looks_attempt ?_) (congrArg Except.ok hinner)).trans rfl
  exact looks_bind (looks_weaklyCanonical _) fun _ => looks_bind (looks_weaklyCanonical _) fun _ => looks_pure _

/-! ## Texts of canonical paths -/

/-- From the root, without `.` and `..`, and no slash at the end. -/
structure IsCanonical (path : PathStr) : Prop where
  absolute : path.absolute = true
  trailing : path.trailing = false
  names : ∀ c ∈ path.names, c ≠ [] ∧ slash ∉ c ∧ c ≠ dot ∧ c ≠ dotdot

/-- The names, each after a slash. -/
def slashed (names : List Str) : Str := names.flatMap fun c => slash :: c

theorem slashed_cons (c : Str) (names : List Str) : slashed (c :: names) = slash :: (c ++ slashed names) := rfl

theorem slashed_append (l l' : List Str) : slashed (l ++ l') = slashed l ++ slashed l' := List.flatMap_append

theorem intersperse_slash (c : Str) (names : List Str) :
    ((c :: names).intersperse [slash]).flatten = c ++ slashed names := by
  induction names generalizing c with
  | nil => simp [slashed]
  | cons d names ih => simp [ih d, slashed_cons]

/-- The root is a slash, and any other canonical path is its names, each after one. -/
theorem render_canonical {path : PathStr} (h : IsCanonical path) :
    path.render = if path.names = [] then [slash] else slashed path.names := by
  obtain ⟨absolute, names, trailing⟩ := path
  obtain ⟨rfl, rfl, -⟩ := h
  cases names with
  | nil => rfl
  | cons c names => simp [PathStr.render, intersperse_slash, slashed_cons]

/-- A name ends where a slash, or the text, does. -/
theorem name_unique {c d s t : Str} (hc : slash ∉ c) (hd : slash ∉ d) (hs : ∀ x, s.head? = some x → x = slash)
    (ht : ∀ x, t.head? = some x → x = slash) (h : c ++ s = d ++ t) : c = d ∧ s = t := by
  have hsplit : ∀ {e u : Str}, slash ∉ e → (∀ x, u.head? = some x → x = slash) →
      (e ++ u).takeWhile (· ≠ slash) = e := by
    intro e u he hu
    have hpos : ∀ x ∈ e, decide (x ≠ slash) = true := by
      intro x hx
      rw [decide_eq_true_eq]
      rintro rfl
      exact he hx
    rw [List.takeWhile_append_of_pos hpos]
    cases u with
    | nil => simp
    | cons x u => simp [hu x rfl]
  have hcd : c = d := by rw [← hsplit hc hs, h, hsplit hd ht]
  subst hcd
  exact ⟨rfl, List.append_cancel_left h⟩

theorem head?_slashed (names : List Str) : ∀ x, (slashed names).head? = some x → x = slash := by
  cases names with
  | nil => simp [slashed]
  | cons c names =>
    intro x hx
    simpa [slashed_cons] using hx.symm

/-- A text that goes on with a slash, or not at all, goes on with names. -/
theorem prefix_of_slashed {rs cs : List Str} {t : Str} (hr : ∀ c ∈ rs, slash ∉ c) (hc : ∀ c ∈ cs, slash ∉ c)
    (ht : ∀ x, t.head? = some x → x = slash) (h : slashed rs ++ t = slashed cs) : rs <+: cs := by
  induction rs generalizing cs with
  | nil => exact List.nil_prefix
  | cons r rs ih =>
    cases cs with
    | nil => simp [slashed] at h
    | cons c cs =>
      simp only [slashed_cons, List.cons_append, List.cons.injEq, true_and, List.append_assoc] at h
      have hhead : ∀ x, (slashed rs ++ t).head? = some x → x = slash := by
        cases rs with
        | nil => exact ht
        | cons r' rs =>
          intro x hx
          simpa [slashed_cons] using hx.symm
      obtain ⟨rfl, hrest⟩ := name_unique (hr r List.mem_cons_self) (hc c List.mem_cons_self) hhead (head?_slashed cs) h
      have hrs := ih (fun c hm => hr c (List.mem_cons_of_mem _ hm)) (fun c hm => hc c (List.mem_cons_of_mem _ hm)) hrest
      exact List.cons_prefix_cons.2 ⟨rfl, hrs⟩

/-- Whether the text that goes on from the root does so with a slash decides
whether comparing texts is comparing names. -/
theorem render_prefix_iff {root path : PathStr} (hr : IsCanonical root) (hc : IsCanonical path) :
    ((root.render <+: path.render) ↔ root.names <+: path.names) ↔
      (root.names = [] ∨ ∀ c, root.render ++ [c] <+: path.render → c = slash) := by
  rw [render_canonical hr, render_canonical hc]
  by_cases hroot : root.names = []
  · have hslash : [slash] <+: if path.names = [] then [slash] else slashed path.names := by
      cases hp : path.names with
      | nil => exact List.prefix_rfl
      | cons c names => exact ⟨c ++ slashed names, by simp [slashed_cons]⟩
    simp [hroot, hslash]
  rw [if_neg hroot, or_iff_right hroot]
  have hslash : ∀ {q : PathStr}, IsCanonical q → ∀ c ∈ q.names, slash ∉ c := fun hq c hm => (hq.names c hm).2.1
  by_cases hpath : path.names = []
  · -- The path is `/`, and no other root is a prefix of it.
    obtain ⟨r, rs, hrs⟩ := List.exists_cons_of_ne_nil hroot
    have hne : r ≠ [] := (hr.names r (by rw [hrs]; exact List.mem_cons_self)).1
    rw [if_pos hpath, hpath, hrs]
    have hno : ¬ slashed (r :: rs) <+: [slash] := by
      rintro ⟨t, ht⟩
      simp [slashed_cons, hne] at ht
    simp only [hno, List.prefix_nil, reduceCtorEq, true_iff]
    intro c hc
    exact absurd ((List.prefix_append _ _).trans hc) hno
  rw [if_neg hpath]
  constructor
  · rintro hiff c ⟨t, ht⟩
    obtain ⟨rest, hrest⟩ := hiff.1 ⟨[c] ++ t, by rw [← ht, List.append_assoc]⟩
    rw [← hrest, slashed_append, List.append_assoc] at ht
    have hgo : [c] ++ t = slashed rest := List.append_cancel_left ht
    exact head?_slashed rest c (by rw [← hgo]; rfl)
  · intro hgo
    constructor
    · rintro ⟨t, ht⟩
      refine prefix_of_slashed (hslash hr) (hslash hc) ?_ ht
      intro x hx
      obtain ⟨t, rfl⟩ := List.head?_eq_some_iff.1 hx
      exact hgo x ⟨t, by rw [List.append_assoc]; exact ht⟩
    · rintro ⟨rest, hrest⟩
      exact ⟨slashed rest, by rw [← hrest, slashed_append]⟩

/-- For every tree, root and path whose canonical paths are canonical: the
answer is whether the path is the root or beneath it, iff the root is `/` or the
text of the path does not go on from that of the root with anything but a slash. -/
theorem allowed_iff_beneath_iff {p : Process} {fs : Fs} {allowedRoot path : Str} {canonical root : PathStr}
    (hc : ((weaklyCanonical (toPath path) : FileProg p PathStr).exec fs).result = .ok canonical)
    (hr : ((weaklyCanonical (toPath allowedRoot) : FileProg p PathStr).exec fs).result = .ok root)
    (hcanonical : IsCanonical canonical) (hroot : IsCanonical root) :
    (((isPathAllowed allowedRoot path : FileProg p Bool).exec fs).result = .ok true ↔ root.names <+: canonical.names) ↔
      (root.names = [] ∨ ∀ c, root.render ++ [c] <+: canonical.render → c = slash) := by
  rw [isPathAllowed_result hc hr, ← render_prefix_iff hroot hcanonical]
  simp only [Except.ok.injEq, List.isPrefixOf_iff_prefix]

/-- A root with a name, and a directory beside it whose name begins with that. -/
def siblings : Fs :=
  ((((∅ : Fs).insert [lit "srv", lit "ab"] (.dir ⟨0, 0, 0o755⟩)).insert [lit "srv", lit "a"] (.dir ⟨0, 0, 0o755⟩)).insert
    [lit "srv"] (.dir ⟨0, 0, 0o755⟩)).insert [] (.dir ⟨0, 0, 0o755⟩)

def anyProcess : Process := ⟨⟨997, 997, []⟩, 0o022, []⟩

theorem siblings_root :
    ((weaklyCanonical (toPath (lit "/srv/a")) : FileProg anyProcess PathStr).exec siblings).result =
      .ok ⟨true, [lit "srv", lit "a"], false⟩ := by
  decide

theorem isCanonical_root : IsCanonical ⟨true, [lit "srv", lit "a"], false⟩ := ⟨rfl, rfl, by decide⟩

/-- A file that is not there yet, beneath the root. -/
theorem allowed_iff_beneath_iff_new :
    ((isPathAllowed (lit "/srv/a") (lit "/srv/a/b") : FileProg anyProcess Bool).exec siblings).result = .ok true ↔
      [lit "srv", lit "a"] <+: [lit "srv", lit "a", lit "b"] := by
  have hc : ((weaklyCanonical (toPath (lit "/srv/a/b")) : FileProg anyProcess PathStr).exec siblings).result =
      .ok ⟨true, [lit "srv", lit "a", lit "b"], false⟩ := by decide
  refine (allowed_iff_beneath_iff hc siblings_root ⟨rfl, rfl, by decide⟩ isCanonical_root).2 (.inr ?_)
  rintro c ⟨t, ht⟩
  have hgo : [c] ++ t = lit "/b" := List.append_cancel_left ((List.append_assoc _ _ _).symm.trans ht)
  exact (List.cons.inj hgo).1

/-- The directory beside the root is allowed. -/
theorem sibling_is_allowed :
    ((weaklyCanonical (toPath (lit "/srv/a")) : FileProg anyProcess PathStr).exec siblings).result =
      .ok ⟨true, [lit "srv", lit "a"], false⟩ ∧
    ((weaklyCanonical (toPath (lit "/srv/ab")) : FileProg anyProcess PathStr).exec siblings).result =
      .ok ⟨true, [lit "srv", lit "ab"], false⟩ ∧
    ((isPathAllowed (lit "/srv/a") (lit "/srv/ab") : FileProg anyProcess Bool).exec siblings).result = .ok true ∧
    ¬ [lit "srv", lit "a"] <+: [lit "srv", lit "ab"] := by
  refine ⟨siblings_root, ?_, ?_, ?_⟩ <;> decide

end McpBridge.Tools
