import McpBridge.Lib.Credentials
import McpBridge.Lib.JsonText
import McpBridge.Lib.ShellLine
/-!
# The identity of a tenant's command (`platform/linux/process_linux.cpp`)

`run_process_as` and `spawn_background_as` fork, and the child takes the groups, the
group id and the user id of the account before it executes a shell. Its ids are then
the account's, all of them. That keeps the command to the account exactly where the
daemon is root or its ambient set has no capability over ids (`tool_shell_confined_iff`):
a change of user takes capabilities from root only, and the ambient set comes
through `execve`.

`debian/mcp-bridge.service` starts the daemon as a user of its own with both
capabilities in its ambient set, so that the shell of any tenant can become any user
(`unit_shell_becomes_anyone`).
-/

open McpBridge.Lib McpBridge.Lib.Shell

namespace McpBridge.Tools.RunAs

/-! ## The child -/

/-- What `getpwnam_r` gives, and the groups the group database has the account in. -/
structure Passwd where
  uid : Nat
  gid : Nat
  dir : Option Str := none
  memberOf : List Nat := []

/-- The groups `initgroups` sets. -/
def Passwd.groups (pwd : Passwd) : List Nat := pwd.gid :: pwd.memberOf.filter (· ≠ pwd.gid)

/-- The account, as ids. -/
def Passwd.ids (pwd : Passwd) : Ids := Ids.of pwd.uid pwd.gid pwd.groups

/-- Groups and group id come before the user id, which takes the capability over them. -/
def dropTo (pwd : Passwd) (c : Creds) : Option Creds := do
  let c ← c.setgroups pwd.groups
  let c ← c.setgid pwd.gid
  c.setuid pwd.uid

/-- How the child ends, or what it executes. -/
inductive Child where
  | exited (code : Nat)
  | execs (path : Str) (argv envp : List Str) (creds : Creds)

def timeoutPath : Str := lit "/usr/bin/timeout"

def shellPath : Str := lit "/bin/sh"

/-- The environment `run_process_as` makes. -/
def environment (pwd : Passwd) (osUsername : Str) (env : List (Str × Str)) : List Str :=
  [lit "HOME=" ++ pwd.dir.getD (lit "/"), lit "USER=" ++ osUsername, lit "LOGNAME=" ++ osUsername,
    lit "PATH=/usr/local/sbin:/usr/local/bin:/usr/sbin:/usr/bin:/sbin:/bin"] ++ env.map fun kv => kv.1 ++ lit "=" ++ kv.2

/-- What a tool starts. -/
inductive Start where
  | runAs (osUsername command cwd : Str) (timeoutSecs : Int) (env : List (Str × Str))
  | background (command cwd : Str) (environ : List Str)

/-- What there is on the machine: the two programs, and whether the daemon may enter the directory. -/
structure Machine where
  timeout : Bool := true
  shell : Bool := true
  chdir : Bool := true

section
variable (m : Machine) (pwd : Passwd)

/-- `run_process_as` in the child: a missing `timeout` is fallen back from. -/
def runProcessAsChild (osUsername command cwd : Str) (timeoutSecs : Int) (env : List (Str × Str)) (c : Creds) : Child :=
  match dropTo pwd c with
  | none => .exited 126
  | some c =>
    let envp := (environment pwd osUsername env).map cString
    let fullCmd := cString (if cwd ≠ [] then lit "cd " ++ cwd ++ lit " && " ++ command else command)
    if 0 < timeoutSecs ∧ m.timeout then
      .execs timeoutPath [timeoutPath, writeInt timeoutSecs, shellPath, lit "-c", fullCmd] envp (c.exec {})
    else if m.shell then .execs shellPath [shellPath, lit "-c", fullCmd] envp (c.exec {})
    else .exited 127

/-- `spawn_background_as` in the child: the directory is entered as the daemon. -/
def spawnBackgroundAsChild (command cwd : Str) (environ : List Str) (c : Creds) : Child :=
  if cwd ≠ [] ∧ !m.chdir then .exited 1
  else match dropTo pwd c with
    | none => .exited 126
    | some c => if m.shell then .execs shellPath [lit "sh", lit "-c", cString command] environ (c.exec {}) else .exited 127

def Start.child (c : Creds) : Start → Child
  | .runAs osUsername command cwd timeoutSecs env => runProcessAsChild m pwd osUsername command cwd timeoutSecs env c
  | .background command cwd environ => spawnBackgroundAsChild m pwd command cwd environ c

end

/-- The shell that reads the command, where one does: `timeout` executes it in turn. -/
def Child.shell (m : Machine) : Child → Option Creds
  | .exited _ => none
  | .execs path _ _ c => if path = timeoutPath then (if m.shell then some (c.exec {}) else none) else some c

/-! ## The drop -/

section
variable {m : Machine} {pwd : Passwd} {d c : Creds} {u g : Nat} {gs : List Nat}

/-- What the drop leaves of the daemon's sets. -/
def dropped (u v : Nat) (caps : Caps) : Caps :=
  if u = 0 ∧ v ≠ 0 then caps.cleared else if u ≠ 0 ∧ v = 0 then caps.allEffective else caps

theorem changeUser_eq {old new : Ids} {u v : Nat} (hold : old.ruid = u ∧ old.euid = u ∧ old.suid = u)
    (hnew : new.ruid = v ∧ new.euid = v ∧ new.suid = v) (caps : Caps) : caps.changeUser old new = dropped u v caps := by
  obtain ⟨hr, he, hs⟩ := hold
  obtain ⟨hr', he', hs'⟩ := hnew
  by_cases hu : u = 0 <;> by_cases hv : v = 0 <;> simp [Caps.changeUser, dropped, Ids.hasRoot, hr, he, hs, hr', he', hs', hu, hv]

theorem dropped_ambient {u v : Nat} (hv : v ≠ 0) (caps : Caps) : (dropped u v caps).ambient = if u = 0 then ∅ else caps.ambient := by
  by_cases hu : u = 0
  · simp [dropped, hu, hv, Caps.cleared]
  · simp [dropped, hu, hv]

/-- When the drop works, and what it gives, for a daemon that is one user throughout. -/
theorem dropTo_some_iff (hd : d.ids = Ids.of u g gs) :
    dropTo pwd d = some c ↔
      d.able capSetgid = true ∧ (d.able capSetuid = true ∨ pwd.uid = u) ∧ c = ⟨pwd.ids, dropped u pwd.uid d.caps⟩ := by
  by_cases hg : d.able capSetgid = true
  · -- The groups and the group id leave the sets as they are.
    have hdrop : dropTo pwd d = Creds.setuid pwd.uid ⟨{ pwd.ids with ruid := u, euid := u, suid := u }, d.caps⟩ := by
      have hsets : ∀ ids, Creds.able capSetgid ⟨ids, d.caps⟩ = true := fun _ => hg
      simp [dropTo, Creds.setgroups, Creds.setgid, hg, hsets, hd, Ids.of, Passwd.ids]
    rw [hdrop]
    by_cases hu : d.able capSetuid = true
    · have hable : ∀ ids, Creds.able capSetuid ⟨ids, d.caps⟩ = true := fun _ => hu
      simp only [Creds.setuid, hable, if_true, Creds.changeUser, hg, true_or, true_and, Option.some.injEq]
      rw [changeUser_eq ⟨rfl, rfl, rfl⟩ ⟨rfl, rfl, rfl⟩, eq_comm]
      rfl
    · have hable : ∀ ids, Creds.able capSetuid ⟨ids, d.caps⟩ = false := fun _ => Bool.eq_false_iff.2 hu
      simp only [Creds.setuid, hable, Bool.false_eq_true, if_false, or_self, Option.ite_none_right_eq_some, Option.some.injEq,
        hg, false_or, true_and, Creds.changeUser]
      refine and_congr_right fun huid => ?_
      subst huid
      rw [changeUser_eq ⟨rfl, rfl, rfl⟩ ⟨rfl, rfl, rfl⟩, eq_comm]
      rfl
  · simp [dropTo, Creds.setgroups, hg]

/-! ## The shell -/

theorem shell_ne_timeout : shellPath ≠ timeoutPath := by decide

/-- A shell is executed after the drop, at once or by `timeout`. -/
theorem shell_of_drop {start : Start} {s : Creds} (hs : (start.child m pwd d).shell m = some s) :
    ∃ c, dropTo pwd d = some c ∧ (s = c.exec {} ∨ s = (c.exec {}).exec {}) := by
  cases start with
  | runAs osUsername command cwd timeoutSecs env =>
    simp only [Start.child, runProcessAsChild] at hs
    rcases hc : dropTo pwd d with _ | c <;> simp only [hc] at hs
    · cases hs
    refine ⟨c, rfl, ?_⟩
    by_cases ht : 0 < timeoutSecs ∧ m.timeout = true
    · simp only [ht, and_self, if_true, Child.shell, Option.ite_none_right_eq_some] at hs
      exact .inr (Option.some.inj hs.2).symm
    · by_cases hm : m.shell = true
      · simp only [ht, hm, if_false, if_true, Child.shell, shell_ne_timeout] at hs
        exact .inl (Option.some.inj hs).symm
      · simp [ht, hm, Child.shell] at hs
  | background command cwd environ =>
    simp only [Start.child, spawnBackgroundAsChild] at hs
    split at hs
    · cases hs
    rcases hc : dropTo pwd d with _ | c <;> simp only [hc] at hs
    · cases hs
    refine ⟨c, rfl, .inl ?_⟩
    by_cases hm : m.shell = true
    · simp only [hm, if_true, Child.shell, shell_ne_timeout, if_false] at hs
      exact (Option.some.inj hs).symm
    · simp [hm, Child.shell] at hs

/-- A program executed as one user throughout, with its ids and what is permitted to it. -/
theorem exec_of {c : Creds} {uid gid : Nat} {groups : List Nat} (hc : c.ids = Ids.of uid gid groups) (h0 : uid ≠ 0) :
    (c.exec {}).ids = Ids.of uid gid groups ∧ (c.exec {}).caps.permitted = c.caps.ambient ∧
      (c.exec {}).caps.ambient = c.caps.ambient := by
  have hplain : Image.Plain {} := by decide
  have hids : (c.exec {}).ids = Ids.of uid gid groups := by
    rw [Creds.exec_ids hplain, hc]
    rfl
  obtain ⟨hp, -, ha⟩ := Creds.exec_caps hplain c (by rw [hc]; exact h0) (by rw [hc]; exact h0)
  exact ⟨hids, hp, ha⟩

/-- The shell of a command is the account, with the ambient capabilities the drop left. -/
theorem shell_creds {start : Start} {s : Creds} (hd : d.ids = Ids.of u g gs) (h0 : pwd.uid ≠ 0)
    (hs : (start.child m pwd d).shell m = some s) :
    s.ids = pwd.ids ∧ s.caps.permitted = if u = 0 then ∅ else d.caps.ambient := by
  obtain ⟨c, hc, hs⟩ := shell_of_drop hs
  obtain ⟨-, -, rfl⟩ := (dropTo_some_iff hd).1 hc
  obtain ⟨hids, hp, ha⟩ := exec_of (c := ⟨pwd.ids, dropped u pwd.uid d.caps⟩) rfl h0
  rw [dropped_ambient h0] at hp ha
  rcases hs with rfl | rfl
  · exact ⟨hids, hp⟩
  · obtain ⟨hids', hp', -⟩ := exec_of hids h0
    exact ⟨hids', hp'.trans ha⟩

/-- The shell of a tenant's command is that account, all its ids and groups, and no call of its own changes
them, exactly where the daemon is root or has neither capability over ids in its ambient set. -/
theorem tool_shell_confined_iff {start : Start} {s : Creds} (hd : d.ids = Ids.of u g gs) (h0 : pwd.uid ≠ 0)
    (hs : (start.child m pwd d).shell m = some s) :
    s.ids = pwd.ids ∧ (s.Confined ↔ u = 0 ∨ capSetgid ∉ d.caps.ambient ∧ capSetuid ∉ d.caps.ambient) := by
  obtain ⟨hids, hp⟩ := shell_creds hd h0 hs
  refine ⟨hids, ?_⟩
  rw [confined_iff hids h0, hp]
  by_cases hu : u = 0 <;> simp [hu]

end

/-- A root daemon, with a few of root's capabilities. -/
def rootCreds : Creds where
  ids := Ids.of 0 0 []
  caps :=
    { permitted := {capChown, capSetgid, capSetuid}
      effective := {capChown, capSetgid, capSetuid}
      inheritable := ∅
      ambient := ∅
      bounding := {capChown, capSetgid, capSetuid}
      effective_le := Finset.Subset.refl _
      ambient_le := Finset.empty_subset _ }

def smallAccount : Passwd := ⟨1001, 1001, some (lit "/var/empty"), [27, 1001]⟩

/-- Under `timeout`, run by a root daemon. -/
theorem tool_shell_confined_small :
    ∃ s, ((Start.runAs (lit "mcp_user_abcdefgh") (lit "id") [] 30 []).child {} smallAccount rootCreds).shell {} = some s ∧
      s.ids = ⟨1001, 1001, 1001, 1001, 1001, 1001, [1001, 27]⟩ ∧ s.Confined := by
  let s : Creds :=
    ⟨⟨1001, 1001, 1001, 1001, 1001, 1001, [1001, 27]⟩, ⟨∅, ∅, ∅, ∅, {capChown, capSetgid, capSetuid}, by decide, by decide⟩⟩
  have hs : ((Start.runAs (lit "mcp_user_abcdefgh") (lit "id") [] 30 []).child {} smallAccount rootCreds).shell {} = some s := by
    decide +kernel
  obtain ⟨hids, hconfined⟩ := tool_shell_confined_iff (d := rootCreds) rfl (by decide) hs
  exact ⟨s, hs, hids, hconfined.2 (.inl rfl)⟩

/-! ## The unit -/

/-- `CapabilityBoundingSet=` of the unit. -/
def unitBounding : Finset Cap := {capChown, capDacOverride, capDacReadSearch, capFowner, capSetgid, capSetuid}

/-- The daemon as the unit starts it: `User=`, `Group=` and `AmbientCapabilities=`. -/
def unitCreds (uid gid : Nat) (groups : List Nat) : Creds where
  ids := Ids.of uid gid groups
  caps :=
    { permitted := {capSetgid, capSetuid}
      effective := {capSetgid, capSetuid}
      inheritable := {capSetgid, capSetuid}
      ambient := {capSetgid, capSetuid}
      bounding := unitBounding
      effective_le := Finset.Subset.refl _
      ambient_le := by decide }

section
variable {m : Machine} {pwd : Passwd} {d c : Creds} (start : Start)

theorem shell_of_dropTo (hm : m.shell = true) (hdir : m.chdir = true) (hc : dropTo pwd d = some c) :
    ∃ s, (start.child m pwd d).shell m = some s := by
  cases start with
  | runAs osUsername command cwd timeoutSecs env =>
    simp only [Start.child, runProcessAsChild, hc]
    by_cases ht : 0 < timeoutSecs ∧ m.timeout = true <;> simp [ht, hm, Child.shell, shell_ne_timeout]
  | background command cwd environ =>
    simp [Start.child, spawnBackgroundAsChild, hc, hm, hdir, Child.shell, shell_ne_timeout]

/-- Every command of a tenant starts under the unit, as that account; and its shell can become anyone,
and root with all the bounding set. -/
theorem unit_shell_becomes_anyone {uid : Nat} (huid : uid ≠ 0) (gid : Nat) (groups : List Nat) (h0 : pwd.uid ≠ 0)
    (hm : m.shell = true) (hdir : m.chdir = true) :
    ∃ s, (start.child m pwd (unitCreds uid gid groups)).shell m = some s ∧ s.ids = pwd.ids ∧
      (∀ uid' gid' groups', s.Reaches fun t => t.ids = Ids.of uid' gid' groups') ∧
      s.Reaches fun t => t.ids = Ids.of 0 0 [] ∧ t.caps.effective = unitBounding := by
  have hdrop : dropTo pwd (unitCreds uid gid groups) = some ⟨pwd.ids, (unitCreds uid gid groups).caps⟩ := by
    refine (dropTo_some_iff rfl).2 ⟨by simp [Creds.able, unitCreds], .inl (by simp [Creds.able, unitCreds]), ?_⟩
    simp [dropped, huid, h0]
  obtain ⟨s, hs⟩ := shell_of_dropTo start hm hdir hdrop
  obtain ⟨hids, hp⟩ := shell_creds (u := uid) rfl h0 hs
  rw [if_neg huid] at hp
  have hg : capSetgid ∈ s.caps.permitted := by rw [hp]; simp [unitCreds]
  have hu : capSetuid ∈ s.caps.permitted := by rw [hp]; simp [unitCreds]
  refine ⟨s, hs, hids, fun uid' gid' groups' => becomes_anyone hg hu uid' gid' groups', ?_⟩
  have hsets : s.caps.inheritable ∪ s.caps.bounding = unitBounding := by
    obtain ⟨c, hc, hs⟩ := shell_of_drop hs
    rw [hdrop] at hc
    obtain rfl := Option.some.inj hc
    rcases hs with rfl | rfl <;> exact (by decide : ({capSetgid, capSetuid} : Finset Cap) ∪ unitBounding = unitBounding)
  rw [← hsets]
  exact becomes_root hg hu

end

/-- A background command of a tenant, from the daemon `mcp`. -/
theorem unit_shell_becomes_anyone_small :
    ∃ s, ((Start.background (lit "sleep 60") [] []).child {} smallAccount (unitCreds 997 997 [997])).shell {} = some s ∧
      s.ids = smallAccount.ids ∧ (∀ uid gid groups, s.Reaches fun t => t.ids = Ids.of uid gid groups) ∧
      s.Reaches fun t => t.ids = Ids.of 0 0 [] ∧ t.caps.effective = unitBounding :=
  unit_shell_becomes_anyone (.background (lit "sleep 60") [] []) (by decide) 997 [997] (by decide) rfl rfl

end McpBridge.Tools.RunAs
