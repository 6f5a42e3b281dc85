import McpBridge.Grants.Manager
import McpBridge.Lib.Threads
/-!
# Concurrent requests, revocations and sweeps

The server runs each call on a thread of its own, and the sweeper on another.
The manager's mutex covers the map and the state file but not the helper, so
the atomic steps are: a request reads the clock, registers the grant, installs
it; a revocation removes the drop-in, then erases the entry; a sweep reads the
clock, collects the expired ids, and revokes them one after the other. The
helper does what it is asked. Writes of the state file may fail.
-/

open McpBridge.Lib McpBridge.Core

namespace McpBridge.Grants

/-- The arguments of a `requestGrant`. -/
structure Request where
  ctx : RequestContext
  shortid : Str
  templateName : Str
  capturedArgs : Json
  ttl : Int

/-- Where a call stands. A revocation is a list of one id, a sweep one of many. -/
inductive Op where
  | request (r : Request)
  | prepared (r : Request) (spec : Str) (expiresAt : Int64)
  | installing (r : Request) (g : Grant) (spec : Str)
  | sweep
  | collecting (now : Int64)
  | revoking (ids : List Str)
  | erasing (id : Str) (ids : List Str)

/-- A step's random bytes and the outcome of its write of the state file. -/
inductive Act where
  | go
  | register (buf : Vector UInt8 8) (o : WriteOutcome)
  | erase (o : WriteOutcome)

structure Shared where
  world : World
  clock : Int64

section
variable (J : JsonText) (regexMatch : Str → Str → RegexResult) (cfg : Config)

/-- The next atomic step of a call. The id of a grant is drawn when it is
registered; nothing depends on it before. -/
def Op.step (s : Shared) : Op → Act → Option (Shared × Option Op)
  | .request r, .go =>
    if r.ttl < 1 ∨ 86400 < r.ttl then some (s, none)
    else match renderSpec regexMatch cfg r.shortid r.templateName r.capturedArgs with
      | .error _ => some (s, none)
      | .ok spec => some (s, some (.prepared r spec (s.clock + .ofInt r.ttl)))
  | .prepared r spec expiresAt, .register buf o =>
    let g : Grant := ⟨makeGrantid buf, r.shortid, r.templateName, r.capturedArgs, expiresAt⟩
    if g.grantid ∈ s.world.grants ∨ g.grantid ∈ s.world.dropIns then none
    else match registerGrant J cfg g o s.world with
      | (.error _, w) => some ({ s with world := w }, none)
      | (.ok (), w) => some ({ s with world := w }, some (.installing r g spec))
  | .installing r g spec, .go =>
    let detail := lit "template=" ++ r.templateName ++ lit " shortid=" ++ r.shortid ++ lit " ttl=" ++ writeInt r.ttl
    let w := (installGrantViaHelper cfg g spec {} {} s.world).2.2.logAudit (lit "grant_issued") r.ctx g.grantid detail
    some ({ s with world := w }, none)
  | .sweep, .go => some (s, some (.collecting s.clock))
  | .collecting now, .go => some (s, some (.revoking (expiredIds now s.world)))
  | .revoking [], .go => some (s, none)
  | .revoking (id :: ids), .go =>
    if validGrantid id then
      some ({ s with world := (revokeGrantViaHelper id {} s.world).2.2 }, some (.erasing id ids))
    else some (s, some (.revoking ids))
  | .erasing id ids, .erase o =>
    some ({ s with world := (eraseGrant J cfg id 0 o s.world).2 }, some (.revoking ids))
  | _, _ => none

/-- The calls a client or the sweeper makes, over a clock that advances. -/
def program : Program Shared Op Act Nat where
  start _
    | .request _ => true
    | .sweep => true
    | .revoking [_] => true
    | _ => false
  step := Op.step J regexMatch cfg
  env s d := some { s with clock := s.clock + .ofNat d }

/-- Everything a step can do to the grants and the drop-ins. -/
inductive Effect (s : Shared) : Op → Shared → Option Op → Prop where
  | local_ {l : Op} {s' : Shared} {l' : Option Op} : s'.world.grants = s.world.grants →
      s'.world.dropIns = s.world.dropIns → (∀ r g spec, l' ≠ some (.installing r g spec)) → Effect s l s' l'
  | registered {l : Op} {s' : Shared} (r : Request) (g : Grant) (spec : Str) : g.grantid ∉ s.world.grants →
      s'.world.grants = s.world.grants.insert g.grantid g → s'.world.dropIns = s.world.dropIns →
      Effect s l s' (some (.installing r g spec))
  | installed {s' : Shared} (r : Request) (g : Grant) (spec : Str) : s'.world.grants = s.world.grants →
      s'.world.dropIns = s.world.dropIns.insert g.grantid ⟨spec, g.expiresAt⟩ →
      Effect s (.installing r g spec) s' none
  | removed {l : Op} {s' : Shared} (id : Str) (ids : List Str) : s'.world.grants = s.world.grants →
      s'.world.dropIns = s.world.dropIns.erase id → Effect s l s' (some (.erasing id ids))
  | erased {s' : Shared} (id : Str) (ids : List Str) : s'.world.grants = s.world.grants.erase id →
      s'.world.dropIns = s.world.dropIns → Effect s (.erasing id ids) s' (some (.revoking ids))

theorem Op.step_effect {s s' : Shared} {l : Op} {a : Act} {l' : Option Op}
    (h : Op.step J regexMatch cfg s l a = some (s', l')) : Effect s l s' l' := by
  revert h
  fun_cases Op.step J regexMatch cfg s l a with
  | case1 r httl => rintro ⟨⟩; exact .local_ rfl rfl (by simp)
  | case2 r httl e he => rintro ⟨⟩; exact .local_ rfl rfl (by simp)
  | case3 r httl spec hspec => rintro ⟨⟩; exact .local_ rfl rfl (by simp)
  | case4 r spec expiresAt buf o g hused => rintro ⟨⟩
  | case5 r spec expiresAt buf o g hfresh e w hreg =>
    rintro ⟨⟩
    obtain ⟨hd, ⟨hr, -⟩ | ⟨-, hg⟩⟩ := registerGrant_effect J cfg (not_or.1 hfresh).1 hreg
    · cases hr
    · exact .local_ hg hd (by simp)
  | case6 r spec expiresAt buf o g hfresh w hreg =>
    rintro ⟨⟩
    obtain ⟨hd, ⟨-, hg⟩ | ⟨⟨e, hr⟩, -⟩⟩ := registerGrant_effect J cfg (not_or.1 hfresh).1 hreg
    · exact .registered r g spec (not_or.1 hfresh).1 hg hd
    · cases hr
  | case7 r g spec detail w =>
    rintro ⟨⟩
    exact .installed r g spec rfl rfl
  | case8 => rintro ⟨⟩; exact .local_ rfl rfl (by simp)
  | case9 now => rintro ⟨⟩; exact .local_ rfl rfl (by simp)
  | case10 => rintro ⟨⟩; exact .local_ rfl rfl (by simp)
  | case11 id ids hv => rintro ⟨⟩; exact .removed id ids rfl rfl
  | case12 id ids hv => rintro ⟨⟩; exact .local_ rfl rfl (by simp)
  | case13 id ids o =>
    rintro ⟨⟩
    obtain ⟨hg, hd⟩ := eraseGrant_effect J cfg id 0 o s.world
    exact .erased id ids hg hd
  | case14 => rintro ⟨⟩

/-- The call is between registering `id` and installing it. -/
def Op.installs (id : Str) : Op → Bool
  | .installing _ g _ => g.grantid = id
  | _ => false

/-- A call that is about to erase an entry does so while the grant is neither
installed nor about to be. -/
def Op.ErasesSafely (p : Pool Shared Op) : Op → Prop
  | .erasing id _ => p.shared.world.dropIns.lookup id = none ∧ ∀ l ∈ p.calls, l.installs id = false
  | _ => True

/-- The call that moves erases safely. -/
def ErasesSafely (p : Pool Shared Op) : Event Op Act Nat → Prop
  | .act i _ => ∀ l ∈ p.calls[i]?, l.ErasesSafely p
  | _ => True

instance (p : Pool Shared Op) : DecidablePred (Op.ErasesSafely p)
  | .erasing _ _ => inferInstanceAs (Decidable (_ ∧ _))
  | .request _ | .prepared _ _ _ | .installing _ _ _ | .sweep | .collecting _ | .revoking _ =>
    inferInstanceAs (Decidable True)

instance (p : Pool Shared Op) : DecidablePred (ErasesSafely p)
  | .act i _ => inferInstanceAs (Decidable (∀ l ∈ p.calls[i]?, l.ErasesSafely p))
  | .start _ | .env _ => inferInstanceAs (Decidable True)

/-- A call that is about to install a grant has its entry in the map. -/
def Op.Registered (s : Shared) : Op → Prop
  | .installing _ g _ => s.world.grants.lookup g.grantid = some g
  | _ => True

theorem Op.registered_of_grants {s s' : Shared} (h : s'.world.grants = s.world.grants) {l : Op}
    (hl : l.Registered s) : l.Registered s' := by
  cases l with
  | installing r g spec => simpa only [Op.Registered, h] using hl
  | _ => trivial

theorem Effect.keeps {p : Pool Shared Op} {i : Nat} {a : Act} {l : Op} {s' : Shared} {l' : Option Op}
    (ht : Tracked p.shared.world) (hq : ∀ m ∈ p.calls, m.Registered p.shared) (hc : ErasesSafely p (.act i a))
    (hi : p.calls[i]? = some l) (he : Effect p.shared l s' l') :
    Tracked s'.world ∧ (∀ m, l' = some m → m.Registered s') ∧ ∀ m ∈ p.calls, m.Registered s' := by
  cases he with
  | local_ hg hd hl' =>
    refine ⟨fun id d h => ?_, fun m hm => ?_, fun m hm => Op.registered_of_grants hg (hq m hm)⟩
    · rw [hd] at h
      rw [hg]
      exact ht id d h
    · cases m with
      | installing r g spec => exact absurd hm (hl' r g spec)
      | _ => trivial
  | registered r g spec hf hg hd =>
    -- The id is new, so no entry another call or drop-in relies on is replaced.
    have hne : ∀ id g', p.shared.world.grants.lookup id = some g' → id ≠ g.grantid := by
      rintro id g' h rfl
      exact hf (Map.lookup_some_mem h)
    refine ⟨fun id d h => ?_, fun m hm => ?_, fun m hm => ?_⟩
    · rw [hd] at h
      obtain ⟨g', hg', he⟩ := ht id d h
      exact ⟨g', by rw [hg, Map.lookup_insert_if, if_neg (hne id g' hg'), hg'], he⟩
    · cases hm
      rw [Op.Registered, hg, Map.lookup_insert_if, if_pos rfl]
    · cases m with
      | installing r' g' spec' =>
        have h := hq _ hm
        rw [Op.Registered] at h ⊢
        rw [hg, Map.lookup_insert_if, if_neg (hne _ _ h), h]
      | _ => trivial
  | installed r g spec hg hd =>
    -- The call's own assertion gives the new drop-in its entry.
    have hl := hq _ (List.mem_of_getElem? hi)
    refine ⟨fun id d h => ?_, by simp, fun m hm => Op.registered_of_grants hg (hq m hm)⟩
    rw [hd, Map.lookup_insert_if] at h
    rw [hg]
    split at h
    · next hid => cases h; exact ⟨g, by rw [hid]; exact hl, rfl⟩
    · exact ht id d h
  | removed id ids hg hd =>
    refine ⟨fun id' d h => ?_, ?_, fun m hm => Op.registered_of_grants hg (hq m hm)⟩
    · rw [hd] at h
      rw [hg]
      exact ht id' d (Map.lookup_of_erase h)
    · rintro m ⟨⟩
      trivial
  | erased id ids hg hd =>
    -- The condition: the id is neither installed nor about to be.
    have hc := hc _ hi
    refine ⟨fun id' d h => ?_, ?_, fun m hm => ?_⟩
    · rw [hd] at h
      have hne : id' ≠ id := by
        rintro rfl
        rw [hc.1] at h
        cases h
      rw [hg, Map.lookup_erase_if, if_neg hne]
      exact ht id' d h
    · rintro m ⟨⟩
      trivial
    · cases m with
      | installing r g spec =>
        have hne : g.grantid ≠ id := by simpa [Op.installs] using hc.2 _ hm
        rw [Op.Registered, hg, Map.lookup_erase_if, if_neg hne]
        exact hq _ hm
      | _ => trivial

/-- In every interleaving in which no revocation erases the entry of a grant
that is installed, or about to be, each drop-in has an entry that carries its
expiry, whatever calls are in progress. -/
theorem tracked_of_erases_safely (p p' : Pool Shared Op) (es : List (Event Op Act Nat)) (hcalls : p.calls = [])
    (h0 : Tracked p.shared.world) (hc : Along (program J regexMatch cfg).next ErasesSafely p es)
    (hr : run (program J regexMatch cfg).next p es = some p') : Tracked p'.shared.world := by
  refine (Program.inv (program J regexMatch cfg) (fun s => Tracked s.world) (fun s l => l.Registered s)
    ?_ ?_ ?_ ⟨h0, by simp [hcalls]⟩ hc hr).1
  · intro s l _ hl
    cases l with
    | installing r g spec => cases hl
    | _ => trivial
  · intro p i a l pre post s' l' ht hq hc hi hcalls hs
    obtain ⟨ht', hl', hothers⟩ := (Op.step_effect J regexMatch cfg hs).keeps ht hq hc hi
    refine ⟨ht', hl', fun m hm => hothers m ?_⟩
    rw [hcalls, List.append_cons]
    exact mem_of_mem_others hm
  · intro s d s' ht hs
    cases hs
    exact ⟨ht, fun m hm => Op.registered_of_grants rfl hm⟩

end

/-! ## A sweep between registration and installation -/

/-- A manager with no grants and an empty sudoers directory, at time 1000. -/
def idle : Pool Shared Op := ⟨⟨⟨∅, none, ∅, ∅, [], []⟩, 1000⟩, []⟩

/-- A request for one second of `full_admin`, up to its registration. -/
def registration : List (Event Op Act Nat) :=
  [.start (.request ⟨{}, lit "abcdefgh", kFullAdminTemplate, .obj [], 1⟩), .act 0 .go,
    .act 0 (.register #v[0, 0, 0, 0, 0, 0, 0, 0xaa] {})]

/-- The request is registered, the clock passes its expiry, and a sweep runs
before the request goes on. -/
def sweptFirst : List (Event Op Act Nat) :=
  registration ++ [.env 5, .start .sweep, .act 1 .go, .act 1 .go, .act 1 .go, .act 1 (.erase {}), .act 1 .go, .act 0 .go]

/-- The grant expires before it is installed: the sweep finds no drop-in,
erases the entry, and then the request installs the grant. -/
theorem sweep_before_install_untracks :
    Tracked idle.shared.world ∧
    ∃ p', run (program jsonText (fun _ _ => .unmatched) ⟨lit "/s", [], 1⟩).next idle sweptFirst = some p' ∧
      p'.calls = [] ∧ ∃ id ∈ p'.shared.world.dropIns, id ∉ p'.shared.world.grants := by
  refine ⟨fun id d h => by simp [idle] at h, ?_⟩
  have h : (run (program jsonText (fun _ _ => .unmatched) ⟨lit "/s", [], 1⟩).next idle sweptFirst).map
      (fun p => (p.calls.length, p.shared.world.dropIns.keys, p.shared.world.grants.keys)) =
      some (0, [exampleId], []) := by
    decide +kernel
  obtain ⟨p', hp, hv⟩ := Option.map_eq_some_iff.1 h
  simp only [Prod.mk.injEq, List.length_eq_zero_iff] at hv
  refine ⟨p', hp, hv.1, exampleId, ?_, ?_⟩
  · rw [AList.mem_keys, hv.2.1]
    exact List.mem_singleton_self _
  · rw [AList.mem_keys, hv.2.2]
    exact List.not_mem_nil

/-- The same calls, with the installation before the sweep. -/
def installedFirst : List (Event Op Act Nat) :=
  registration ++ [.act 0 .go, .env 5, .start .sweep, .act 0 .go, .act 0 .go, .act 0 .go, .act 0 (.erase {}), .act 0 .go]

theorem installed_first_tracked :
    ∃ p', run (program jsonText (fun _ _ => .unmatched) ⟨lit "/s", [], 1⟩).next idle installedFirst = some p' ∧
      Tracked p'.shared.world := by
  have h : (run (program jsonText (fun _ _ => .unmatched) ⟨lit "/s", [], 1⟩).next idle installedFirst).isSome = true := by
    decide +kernel
  obtain ⟨p', hp⟩ := Option.isSome_iff_exists.1 h
  refine ⟨p', hp, tracked_of_erases_safely jsonText (fun _ _ => .unmatched) ⟨lit "/s", [], 1⟩ idle p' installedFirst
    rfl ?_ (by decide +kernel) hp⟩
  intro id d h
  simp [idle] at h

end McpBridge.Grants
